/-
**Plans of links and the networks that are built by them.**

A plan lists the pairs of nodes that are to be linked.  Read as a graph on the numbers of the nodes it
is what its name says: a path, a complete graph, a star around node zero, or a graph without edges.
No pair is listed twice, and the lower number comes first.

A network that is built by a plan has an endpoint for each node, and then its pairs are linked one
after the other; this cannot fail, because both ends of each pair have joined before.  As long as
different numbers stand for different peers, the peers that are linked to a node are those of its
neighbours in the graph.

Main definitions:

* `Topology.Joins`: the rule by which a plan links two nodes;
* `Topology.graph`: a plan as a graph.

Main results:

* `Topology.mem_links`: a plan lists the pairs of its rule;
* `Topology.graph_line`, `Topology.graph_full`, `Topology.graph_star`, `Topology.graph_isolated`: the
  graphs by their names;
* `Network.connectAll_of_registered`: what linking a list of pairs does;
* `Topology.builds_the_named_graph`: all of it together.
-/

import Mathlib.Combinatorics.SimpleGraph.Hasse
import Mathlib.Combinatorics.SimpleGraph.Star
import PartExchange.Experiment.Topology
import PartExchange.Proofs.Network
import PartExchange.Proofs.PeerOrder

set_option relaxedAutoImplicit false
set_option autoImplicit false

namespace PartExchange

/-! ### Plans as graphs -/

namespace Topology

/-- Whether a plan links two nodes, of which the first has the lower number. -/
def Joins : Topology → Nat → Nat → Prop
  | .line, a, b => b = a + 1
  | .full, _, _ => True
  | .star, a, _ => a = 0
  | .isolated, _, _ => False

/-- A plan lists the pairs of its rule, the lower number first. -/
theorem mem_links {topology : Topology} {nodes a b : Nat} :
    (a, b) ∈ topology.links nodes ↔ a < b ∧ b < nodes ∧ topology.Joins a b := by
  cases topology with
  | line =>
    simp only [links, Joins, List.mem_map, List.mem_range, Prod.mk.injEq]
    constructor
    · rintro ⟨i, small, rfl, rfl⟩
      omega
    · rintro ⟨-, small, rfl⟩
      exact ⟨a, by omega, rfl, rfl⟩
  | full =>
    simp only [links, Joins, List.mem_flatMap, List.mem_map, List.mem_range, Prod.mk.injEq]
    constructor
    · rintro ⟨i, small, k, room, rfl, rfl⟩
      exact ⟨by omega, by omega, trivial⟩
    · rintro ⟨less, small, -⟩
      exact ⟨a, by omega, b - (a + 1), by omega, rfl, by omega⟩
  | star =>
    simp only [links, Joins, List.mem_map, List.mem_range, Prod.mk.injEq]
    constructor
    · rintro ⟨i, small, rfl, rfl⟩
      omega
    · rintro ⟨less, small, rfl⟩
      exact ⟨b - 1, by omega, rfl, by omega⟩
  | isolated => simp [links, Joins]

/-- No pair is listed twice. -/
theorem nodup_links (topology : Topology) (nodes : Nat) : (topology.links nodes).Nodup := by
  cases topology with
  | line | star =>
    refine List.nodup_range.map ?_
    intro i j same
    simpa using congrArg Prod.snd same
  | full =>
    refine List.nodup_flatMap.2 ⟨?_, ?_⟩
    · intro a _
      refine List.nodup_range.map ?_
      intro i j same
      simpa using congrArg Prod.snd same
    · -- The pairs of different rows differ in their first number.
      refine List.nodup_range.imp ?_
      intro a b differ pair first second
      obtain ⟨i, -, rfl⟩ := List.mem_map.1 first
      obtain ⟨j, -, same⟩ := List.mem_map.1 second
      exact differ (congrArg Prod.fst same).symm
  | isolated => exact List.nodup_nil

/-- Two nodes are neighbours if the plan lists them as a pair, in either order. -/
def graph (topology : Topology) (nodes : Nat) : SimpleGraph (Fin nodes) where
  Adj i j := (i.val, j.val) ∈ topology.links nodes ∨ (j.val, i.val) ∈ topology.links nodes
  symm := ⟨fun _ _ => Or.symm⟩
  loopless := ⟨fun i both => by
    rcases both with listed | listed
    · exact absurd (mem_links.1 listed).1 (Nat.lt_irrefl i)
    · exact absurd (mem_links.1 listed).1 (Nat.lt_irrefl i)⟩

theorem adj_graph {topology : Topology} {nodes : Nat} {i j : Fin nodes} :
    (topology.graph nodes).Adj i j ↔
      (i.val, j.val) ∈ topology.links nodes ∨ (j.val, i.val) ∈ topology.links nodes := Iff.rfl

/-- A line is a path. -/
theorem graph_line (nodes : Nat) : graph .line nodes = SimpleGraph.pathGraph nodes := by
  ext i j
  rw [adj_graph, mem_links, mem_links, SimpleGraph.pathGraph_adj]
  simp only [Joins]
  omega

/-- In a full plan every two nodes are neighbours. -/
theorem graph_full (nodes : Nat) : graph .full nodes = ⊤ := by
  ext i j
  rw [adj_graph, mem_links, mem_links, SimpleGraph.top_adj, ne_eq, Fin.ext_iff]
  simp only [Joins, and_true]
  omega

/-- A star is one around node zero. -/
theorem graph_star (nodes : Nat) : graph .star (nodes + 1) = SimpleGraph.starGraph 0 := by
  ext i j
  rw [adj_graph, mem_links, mem_links, SimpleGraph.starGraph_adj, ne_eq, Fin.ext_iff, Fin.ext_iff,
    Fin.ext_iff]
  simp only [Joins, Fin.val_zero]
  omega

/-- Isolated nodes have no neighbours. -/
theorem graph_isolated (nodes : Nat) : graph .isolated nodes = ⊥ := by
  ext i j
  simp [adj_graph, links]

/-- Unless the nodes are isolated, a path leads from each to each. -/
theorem preconnected_graph {topology : Topology} (linked : topology ≠ .isolated) (nodes : Nat) :
    (topology.graph nodes).Preconnected := by
  cases topology with
  | line =>
    rw [graph_line]
    exact SimpleGraph.pathGraph_preconnected nodes
  | full =>
    rw [graph_full]
    exact SimpleGraph.preconnected_top
  | star =>
    cases nodes with
    | zero => exact fun i => i.elim0
    | succ nodes =>
      rw [graph_star]
      exact (SimpleGraph.connected_starGraph 0).preconnected
  | isolated => exact absurd rfl linked

theorem length_links {topology : Topology} (tree : topology = .line ∨ topology = .star)
    (nodes : Nat) : (topology.links nodes).length = nodes - 1 := by
  rcases tree with rfl | rfl
  · rw [links, List.length_map, List.length_range]
  · rw [links, List.length_map, List.length_range]

end Topology

/-! ### Joining -/

section Join

variable (e : Exchange) (numbers : List Nat)

/-- Nodes that join get an endpoint each, in order, and no links. -/
theorem Exchange.endpoints_join :
    let joined := numbers.foldl (fun e n => (e.joinNetwork (nodePeer n)).1) e
    joined.carriers.net.endpoints.map Endpoint.peer =
        e.carriers.net.endpoints.map Endpoint.peer ++ numbers.map nodePeer ∧
      joined.carriers.net.links = e.carriers.net.links := by
  induction numbers generalizing e with
  | nil => exact ⟨(List.append_nil _).symm, rfl⟩
  | cons n rest ih =>
    obtain ⟨peers, links⟩ := ih (e.joinNetwork (nodePeer n)).1
    refine ⟨peers.trans ?_, links⟩
    have first : (e.joinNetwork (nodePeer n)).1.carriers.net.endpoints.map Endpoint.peer =
        e.carriers.net.endpoints.map Endpoint.peer ++ [nodePeer n] :=
      List.map_append
    rw [first, List.append_assoc, List.singleton_append, List.map_cons]

/-- Nodes that have joined are registered. -/
theorem Exchange.isRegistered_join {peer : PeerId}
    (registered : e.carriers.net.isRegistered peer = true ∨ ∃ n ∈ numbers, peer = nodePeer n) :
    (numbers.foldl (fun e n => (e.joinNetwork (nodePeer n)).1) e).carriers.net.isRegistered peer =
      true := by
  induction numbers generalizing e with
  | nil =>
    rcases registered with before | ⟨n, none, -⟩
    · exact before
    · cases none
  | cons n rest ih =>
    apply ih
    have first : (e.joinNetwork (nodePeer n)).1.carriers.net.endpointOf? peer =
        if peer = nodePeer n then some e.carriers.net.endpoints.length
        else e.carriers.net.endpointOf? peer :=
      Network.endpointOf?_register e.carriers.net (nodePeer n) peer
    by_cases here : peer = nodePeer n
    · left
      rw [Network.isRegistered, first, if_pos here]
      rfl
    · rw [Network.isRegistered, first, if_neg here, ← Network.isRegistered]
      rcases registered with before | ⟨other, among, rfl⟩
      · exact Or.inl before
      · rcases List.mem_cons.1 among with rfl | among
        · exact absurd rfl here
        · exact Or.inr ⟨other, among, rfl⟩

end Join

/-! ### Linking -/

namespace Network

theorem nodup_addLink {links : List (PeerId × PeerId)} (distinct : links.Nodup)
    (link : PeerId × PeerId) : (addLink links link).Nodup := by
  unfold addLink
  split
  · exact distinct
  · rename_i fresh
    rw [List.contains_iff_mem] at fresh
    refine List.nodup_append.2 ⟨distinct, List.nodup_singleton link, ?_⟩
    rintro old among _ new rfl
    rw [List.mem_singleton] at new
    exact fresh (new ▸ among)

/-- Two registered peers can be linked. -/
theorem connect_of_registered {net : Network} {a b : PeerId} (first : net.isRegistered a = true)
    (second : net.isRegistered b = true) :
    net.connect a b =
      .ok { net with links := addLink (addLink net.links (a, b)) (b, a) } := by
  have none : [a, b].find? (!net.isRegistered ·) = none := by
    simp [first, second]
  rw [connect, none]

/-- What linking a list of pairs does if all of their nodes have joined: the links are listed in both
directions, none of them twice, and nothing else changes. -/
theorem connectAll_of_registered {net : Network} {pairs : List (Nat × Nat)}
    (registered : ∀ pair ∈ pairs, net.isRegistered (nodePeer pair.1) = true ∧
      net.isRegistered (nodePeer pair.2) = true) (distinct : net.links.Nodup) :
    ∃ links : List (PeerId × PeerId), net.connectAll pairs = .ok { net with links } ∧
      links.Nodup ∧ ∀ link, link ∈ links ↔ link ∈ net.links ∨
        ∃ a b, ((a, b) ∈ pairs ∨ (b, a) ∈ pairs) ∧ link = (nodePeer a, nodePeer b) := by
  induction pairs generalizing net with
  | nil => exact ⟨net.links, rfl, distinct, by simp⟩
  | cons pair rest ih =>
    obtain ⟨a, b⟩ := pair
    obtain ⟨first, second⟩ := registered (a, b) List.mem_cons_self
    have made := connect_of_registered first second
    obtain ⟨links, rest_made, distinct, listed⟩ := @ih
      { net with
        links := addLink (addLink net.links (nodePeer a, nodePeer b)) (nodePeer b, nodePeer a) }
      (fun other among => registered other (List.mem_cons_of_mem (a, b) among))
      (nodup_addLink (nodup_addLink distinct _) _)
    refine ⟨links, ?_, distinct, ?_⟩
    · rw [connectAll, made]
      exact rest_made
    · intro link
      rw [listed, mem_addLink, mem_addLink]
      constructor
      · rintro (((old | rfl) | rfl) | ⟨c, d, among, rfl⟩)
        · exact Or.inl old
        · exact Or.inr ⟨a, b, Or.inl List.mem_cons_self, rfl⟩
        · exact Or.inr ⟨b, a, Or.inr List.mem_cons_self, rfl⟩
        · exact Or.inr ⟨c, d, among.imp (List.mem_cons_of_mem _) (List.mem_cons_of_mem _), rfl⟩
      · rintro (old | ⟨c, d, among | among, rfl⟩)
        · exact Or.inl (Or.inl (Or.inl old))
        · rcases List.mem_cons.1 among with same | among
          · cases same
            exact Or.inl (Or.inl (Or.inr rfl))
          · exact Or.inr ⟨c, d, Or.inl among, rfl⟩
        · rcases List.mem_cons.1 among with same | among
          · cases same
            exact Or.inl (Or.inr rfl)
          · exact Or.inr ⟨c, d, Or.inr among, rfl⟩

/-- The peers that are linked to a peer are listed in strictly ascending order. -/
theorem ascending_peersOf {net : Network} (distinct : net.links.Nodup) (peer : PeerId) :
    (net.peersOf peer).Pairwise fun p q => p.compare q = .lt := by
  refine PeerId.ascending_sort ?_
  refine List.Nodup.map_on ?_ (distinct.filter _)
  intro first among second other same
  have starts := of_decide_eq_true (List.mem_filter.1 among).2
  have starts' := of_decide_eq_true (List.mem_filter.1 other).2
  exact Prod.ext (starts.trans starts'.symm) same

end Network

/-- Building by a plan cannot fail.  Each node has an endpoint, and the links are those of the plan in
both directions, none of them twice. -/
theorem Exchange.exists_build (nodes : Nat) (topology : Topology) :
    ∃ e, Exchange.build? nodes topology = .ok e ∧
      e.carriers.net.endpoints.map Endpoint.peer = (List.range nodes).map nodePeer ∧
      e.carriers.net.links.Nodup ∧ ∀ x y, e.carriers.net.linked x y = true ↔
        ∃ a b, ((a, b) ∈ topology.links nodes ∨ (b, a) ∈ topology.links nodes) ∧
          x = nodePeer a ∧ y = nodePeer b := by
  obtain ⟨peers, none⟩ := endpoints_join (Exchange.new Network.defaultCapacity) (List.range nodes)
  set joined := (List.range nodes).foldl (fun e n => (e.joinNetwork (nodePeer n)).1)
    (Exchange.new Network.defaultCapacity) with joined_eq
  have registered : ∀ n < nodes, joined.carriers.net.isRegistered (nodePeer n) = true := by
    intro n small
    exact isRegistered_join _ _ (Or.inr ⟨n, List.mem_range.2 small, rfl⟩)
  have empty : joined.carriers.net.links = [] := none
  obtain ⟨links, made, distinct, listed⟩ := @Network.connectAll_of_registered
    joined.carriers.net (topology.links nodes)
    (by
      rintro ⟨a, b⟩ among
      obtain ⟨less, small, -⟩ := Topology.mem_links.1 among
      exact ⟨registered a (less.trans small), registered b small⟩)
    (by rw [empty]; exact List.nodup_nil)
  refine ⟨joined.withNet { joined.carriers.net with links }, ?_, peers, distinct, ?_⟩
  · unfold build?
    rw [← joined_eq]
    dsimp only
    rw [made]
  · intro x y
    have each : (x, y) ∈ links ↔
        ∃ a b, ((a, b) ∈ topology.links nodes ∨ (b, a) ∈ topology.links nodes) ∧
          x = nodePeer a ∧ y = nodePeer b := by
      simpa [empty] using listed (x, y)
    exact List.contains_iff_mem.trans each

/-- **A plan is the graph that it is named after, and so is the network that is built by it.**  A plan
lists pairs of different nodes, the lower number first, and no pair twice; a full one lists all pairs,
a line and a star one fewer than there are nodes, and in each of these a path leads from every node to
every other; isolated nodes have no neighbours.  The network can be built, with one endpoint for each
node.  If different numbers stand for different peers, the peers that are linked to a node are those
of its neighbours, in strictly ascending order and so none of them twice. -/
theorem Topology.builds_the_named_graph (topology : Topology) (nodes : Nat) :
    (∀ a b, (a, b) ∈ topology.links nodes → a < b ∧ b < nodes) ∧
      (topology.links nodes).Nodup ∧
      (topology = .full → ∀ a b, a < b → b < nodes → (a, b) ∈ topology.links nodes) ∧
      (topology = .line ∨ topology = .star → (topology.links nodes).length = nodes - 1) ∧
      (topology ≠ .isolated → (topology.graph nodes).Preconnected) ∧
      (topology = .isolated → topology.graph nodes = ⊥) ∧
      ∃ e, Exchange.build? nodes topology = .ok e ∧
        e.carriers.net.endpoints.map Endpoint.peer = (List.range nodes).map nodePeer ∧
        (Set.InjOn nodePeer {n | n < nodes} → ∀ i < nodes,
          (e.carriers.net.peersOf (nodePeer i)).Nodup ∧
          ((e.carriers.net.peersOf (nodePeer i)).Pairwise fun p q => p.compare q = .lt) ∧
          ∀ peer, peer ∈ e.carriers.net.peersOf (nodePeer i) ↔
            ∃ j, ((i, j) ∈ topology.links nodes ∨ (j, i) ∈ topology.links nodes) ∧
              peer = nodePeer j) := by
  refine ⟨?_, nodup_links topology nodes, ?_, fun tree => length_links tree nodes,
    fun linked => preconnected_graph linked nodes, ?_, ?_⟩
  · intro a b listed
    exact ⟨(mem_links.1 listed).1, (mem_links.1 listed).2.1⟩
  · rintro rfl a b less small
    exact mem_links.2 ⟨less, small, trivial⟩
  · rintro rfl
    exact graph_isolated nodes
  · obtain ⟨e, built, peers, distinct, linked⟩ := Exchange.exists_build nodes topology
    refine ⟨e, built, peers, ?_⟩
    intro injective i small
    have ascending := Network.ascending_peersOf distinct (nodePeer i)
    refine ⟨ascending.imp ?_, ascending, ?_⟩
    · rintro p _ less rfl
      rw [PeerId.compare_self] at less
      cases less
    · intro peer
      rw [Network.mem_peersOf, linked]
      constructor
      · rintro ⟨a, j, listed, same, rfl⟩
        have inside : a < nodes := by
          rcases listed with listed | listed
          · exact (mem_links.1 listed).1.trans (mem_links.1 listed).2.1
          · exact (mem_links.1 listed).2.1
        obtain rfl := injective small inside same
        exact ⟨j, listed, rfl⟩
      · rintro ⟨j, listed, rfl⟩
        exact ⟨i, j, listed, rfl, rfl⟩

/-- In a star of three nodes the outer ones are linked to node zero, and only to it. -/
theorem Topology.star_of_three_nodes :
    Set.InjOn nodePeer {n | n < 3} ∧ ∃ e, Exchange.build? 3 .star = .ok e ∧
      (e.carriers.net.peersOf (nodePeer 0)).Nodup ∧
      (∀ peer, peer ∈ e.carriers.net.peersOf (nodePeer 0) ↔ peer = nodePeer 1 ∨ peer = nodePeer 2) ∧
      ∀ peer, peer ∈ e.carriers.net.peersOf (nodePeer 2) ↔ peer = nodePeer 0 := by
  have different : ∀ a < 3, ∀ b < 3, nodePeer a = nodePeer b → a = b := by decide +kernel
  have injective : Set.InjOn nodePeer {n | n < 3} :=
    fun a small b small' same => different a small b small' same
  obtain ⟨-, -, -, -, -, -, e, built, -, neighbours⟩ := builds_the_named_graph .star 3
  obtain ⟨distinct, -, inner⟩ := neighbours injective 0 (by decide)
  obtain ⟨-, -, outer⟩ := neighbours injective 2 (by decide)
  have listed : links .star 3 = [(0, 1), (0, 2)] := by decide
  rw [listed] at inner outer
  refine ⟨injective, e, built, distinct, ?_, ?_⟩
  · intro peer
    rw [inner]
    simp [or_and_right, exists_or]
  · intro peer
    rw [outer]
    simp

end PartExchange
