/-
**Waits count from the start.**

A runner remembers when it was made, and every wait of its scripts is until a number of seconds after
that time.  However many scripts it runs, in whichever order the numbers come, and whatever else is
asked for or refused in between, the clock shows the latest moment that has been waited for, or the
time at which the first script began if that is later.  No wait adds to another one, and a moment that
has passed is not waited for.

The clock has a last second.  A number of seconds that leads beyond it is one that a script may hold,
and yet the wait breaks the run off.  No other wait fails, and no other instruction fails in this way.

Main definitions:

* `Instruction.wait?`, `Instruction.WaitsFor`: the wait that an instruction is on a node, and the
  moment until which it lasts;
* `Script.Step`, `Script.steps`: an instruction that is executed, and all those that a runner executes
  for its scripts;
* `Script.Traced`: steps that follow upon each other.

Main results:

* `Instruction.isGreatest_now`: the time after one instruction;
* `Script.Traced.isGreatest_now`: the time after many;
* `Script.waits_count_from_start`: all of it together, with the waits that fail;
* `Script.farthest_wait_breaks_off`: there are such waits.
-/

import Mathlib
import PartExchange.Script.Runner

set_option relaxedAutoImplicit false
set_option autoImplicit false

namespace PartExchange

variable {σ : Type}

/-! ### One instruction -/

namespace Instruction

/-- How many seconds after the start an instruction has node `index` wait, if it is a wait. -/
def wait? (index : UInt32) (instruction : Instruction) : Option UInt64 :=
  match instruction.leaf? index with
  | some (.waitUntil seconds) => some seconds
  | _ => none

/-- An instruction has node `index` wait for a moment that the clock reaches. -/
def WaitsFor (index : UInt32) (start : Nat) (instruction : Instruction) (moment : Nat) : Prop :=
  ∃ seconds, instruction.wait? index = some seconds ∧
    start + seconds.toNat ≤ lastSecond ∧ moment = start + seconds.toNat

variable (host : Host σ) {index : UInt32} (start : Nat) (p : Progress σ)
  {instruction : Instruction}

/-- A wait ends at its moment, or at once if that has passed; it fails if the clock does not reach
the moment. -/
theorem execute_of_wait? {seconds : UInt64} (waits : instruction.wait? index = some seconds) :
    instruction.execute host index start p =
      if start + seconds.toNat ≤ lastSecond then
        if start + seconds.toNat ≤ p.now then (p, none)
        else ({ state := host.idle p.state, now := start + seconds.toNat }, none)
      else (p, some .clockRange) := by
  have leaf : instruction.leaf? index = some (.waitUntil seconds) := by
    unfold wait? at waits
    split at waits
    · rename_i here
      rw [here, Option.some.inj waits]
    · cases waits
  rw [execute, leaf]
  dsimp only
  rw [executeLeaf, deadline?]
  by_cases reached : start + seconds.toNat ≤ lastSecond
  · rw [if_pos reached, if_pos reached]
  · rw [if_neg reached, if_neg reached]

/-- An instruction that is no wait takes no time, and does not fail because of the clock. -/
theorem execute_of_wait?_eq_none (other : instruction.wait? index = none) :
    (instruction.execute host index start p).1.now = p.now ∧
      (instruction.execute host index start p).2 ≠ some .clockRange := by
  unfold wait? at other
  unfold execute
  cases found : instruction.leaf? index with
  | none => exact ⟨rfl, nofun⟩
  | some leaf =>
    rw [found] at other
    cases leaf with
    | addParts parts topic group =>
      dsimp only [executeLeaf]
      split <;> exact ⟨rfl, nofun⟩
    | publishParts topic group nodes =>
      dsimp only [executeLeaf]
      split <;> exact ⟨rfl, nofun⟩
    | connect nodes =>
      dsimp only [executeLeaf]
      rcases connectAll host p.state nodes with ⟨s, _ | cause⟩
      · exact ⟨rfl, nofun⟩
      · exact ⟨rfl, nofun⟩
    | waitUntil seconds => cases other
    | onlyOn _ _ | initRouter _ | subscribe _ _ | publishFull _ _ _ | delayValidation _ _ =>
      exact ⟨rfl, nofun⟩

/-- The only failure that the clock causes is that it does not reach the moment of a wait. -/
theorem execute_eq_clockRange_iff :
    (instruction.execute host index start p).2 = some .clockRange ↔
      ∃ seconds, instruction.wait? index = some seconds ∧ lastSecond < start + seconds.toNat := by
  cases waits : instruction.wait? index with
  | none =>
    refine iff_of_false (execute_of_wait?_eq_none host start p waits).2 ?_
    rintro ⟨seconds, ⟨⟩, -⟩
  | some seconds =>
    rw [execute_of_wait? host start p waits]
    simp only [Option.some.injEq, exists_eq_left', ← Nat.not_le]
    split_ifs with reached past
    · exact iff_of_false nofun (not_not_intro reached)
    · exact iff_of_false nofun (not_not_intro reached)
    · exact iff_of_true rfl reached

/-- After an instruction the clock shows what it has shown before, or the moment that has been waited
for if that is later. -/
theorem isGreatest_now :
    IsGreatest {moment | moment = p.now ∨ instruction.WaitsFor index start moment}
      (instruction.execute host index start p).1.now := by
  cases waits : instruction.wait? index with
  | none =>
    rw [(execute_of_wait?_eq_none host start p waits).1]
    refine ⟨Or.inl rfl, ?_⟩
    rintro moment (rfl | ⟨seconds, asked, -⟩)
    · exact Nat.le_refl _
    · cases waits.symm.trans asked
  | some seconds =>
    have bounded : ∀ latest, p.now ≤ latest →
        (start + seconds.toNat ≤ lastSecond → start + seconds.toNat ≤ latest) →
        latest ∈ upperBounds {moment | moment = p.now ∨ instruction.WaitsFor index start moment} := by
      rintro latest before waited moment (rfl | ⟨other, asked, reached, rfl⟩)
      · exact before
      · obtain rfl := Option.some.inj (waits.symm.trans asked)
        exact waited reached
    rw [execute_of_wait? host start p waits]
    split_ifs with reached past
    · exact ⟨Or.inl rfl, bounded _ (Nat.le_refl _) fun _ => past⟩
    · exact ⟨Or.inr ⟨seconds, waits, reached, rfl⟩,
        bounded _ (Nat.le_of_not_le past) fun _ => Nat.le_refl _⟩
    · exact ⟨Or.inl rfl, bounded _ (Nat.le_refl _) fun inside => absurd inside reached⟩

end Instruction

namespace Script

/-! ### The steps of a runner -/

/-- An instruction that is executed, with the run before and after it. -/
structure Step (σ : Type) where
  /-- The instruction. -/
  instruction : Instruction
  /-- The run before. -/
  before : Progress σ
  /-- The run after. -/
  after : Progress σ
  /-- Why the run of the script broke off here, if it did. -/
  failure : Option RunError

/-- The step that an instruction makes. -/
def Step.make (host : Host σ) (index : UInt32) (start : Nat) (p : Progress σ)
    (instruction : Instruction) : Step σ :=
  let done := instruction.execute host index start p
  ⟨instruction, p, done.1, done.2⟩

/-- The steps of one list of instructions; the first that fails is the last. -/
def stepsOf (host : Host σ) (index : UInt32) (start : Nat) :
    List Instruction → Progress σ → List (Step σ)
  | [], _ => []
  | instruction :: rest, p =>
    let step := Step.make host index start p instruction
    step :: if step.failure.isNone then stepsOf host index start rest step.after else []

/-- The steps of a runner that is given one script after the other, whatever becomes of each. -/
def steps (host : Host σ) (index : UInt32) (start : Nat) :
    List Script → Progress σ → List (Step σ)
  | [], _ => []
  | script :: rest, p =>
    stepsOf host index start script.instructions p ++
      steps host index start rest (runList host index start script.instructions p).1

/-- Steps that follow upon each other, from one state of the run to another. -/
inductive Traced (host : Host σ) (index : UInt32) (start : Nat) :
    Progress σ → List (Step σ) → Progress σ → Prop
  | done (p : Progress σ) : Traced host index start p [] p
  | next (instruction : Instruction) {p q : Progress σ} {later : List (Step σ)}
      (rest : Traced host index start (Step.make host index start p instruction).after later q) :
      Traced host index start p (Step.make host index start p instruction :: later) q

section Trace

variable {host : Host σ} {index : UInt32} {start : Nat} {p q r : Progress σ}
  {first later : List (Step σ)}

theorem Traced.append (before : Traced host index start p first q)
    (behind : Traced host index start q later r) :
    Traced host index start p (first ++ later) r := by
  induction before with
  | done p => exact behind
  | next instruction _ ih => exact .next instruction (ih behind)

/-- Every step is the one that its instruction makes, and the steps up to it lead there. -/
theorem Traced.split {step : Step σ}
    (traced : Traced host index start p (first ++ step :: later) q) :
    step = Step.make host index start step.before step.instruction ∧
      Traced host index start p (first ++ [step]) step.after := by
  generalize all : first ++ step :: later = whole at traced
  induction traced generalizing first with
  | done p => cases first <;> cases all
  | @next instruction p q others rest ih =>
    cases first with
    | nil =>
      obtain ⟨rfl, rfl⟩ := List.cons.inj all
      exact ⟨rfl, .next instruction (.done _)⟩
    | cons head tail =>
      obtain ⟨rfl, more⟩ := List.cons.inj all
      obtain ⟨made, leads⟩ := ih more
      exact ⟨made, .next instruction leads⟩

variable (host index start)

/-- The steps of a list of instructions lead to where its run ends. -/
theorem traced_stepsOf (list : List Instruction) (p : Progress σ) :
    Traced host index start p (stepsOf host index start list p)
      (runList host index start list p).1 := by
  induction list generalizing p with
  | nil => exact .done p
  | cons instruction rest ih =>
    rw [stepsOf, runList]
    refine .next instruction ?_
    unfold Step.make
    dsimp only
    rcases instruction.execute host index start p with ⟨q, _ | failure⟩
    · exact ih q
    · exact .done q

/-- A run ends the way its last step does. -/
theorem runList_eq_last (list : List Instruction) (p : Progress σ) :
    runList host index start list p =
      ((stepsOf host index start list p).getLast?.map fun step => (step.after, step.failure)).getD
        (p, none) := by
  induction list generalizing p with
  | nil => rfl
  | cons instruction rest ih =>
    rw [stepsOf, runList]
    unfold Step.make
    dsimp only
    rcases instruction.execute host index start p with ⟨q, _ | failure⟩
    · dsimp only
      rw [ih q, Option.isNone_none, if_pos rfl, List.getLast?_cons]
      cases (stepsOf host index start rest q).getLast? <;> rfl
    · rfl

/-- All steps of a runner follow upon each other. -/
theorem traced_steps (scripts : List Script) (p : Progress σ) :
    ∃ q, Traced host index start p (steps host index start scripts p) q := by
  induction scripts generalizing p with
  | nil => exact ⟨p, .done p⟩
  | cons script rest ih =>
    obtain ⟨q, later⟩ := ih (runList host index start script.instructions p).1
    exact ⟨q, (traced_stepsOf host index start script.instructions p).append later⟩

end Trace

/-! ### The time after many steps -/

/-- After any steps the clock shows the latest of all moments that have been waited for, or what it
has shown at first if that is later. -/
theorem Traced.isGreatest_now {host : Host σ} {index : UInt32} {start : Nat} {p q : Progress σ}
    {steps : List (Step σ)} (traced : Traced host index start p steps q) :
    IsGreatest {moment | moment = p.now ∨
      ∃ step ∈ steps, step.instruction.WaitsFor index start moment} q.now := by
  induction traced with
  | done p =>
    refine ⟨Or.inl rfl, ?_⟩
    rintro moment (rfl | ⟨step, none, -⟩)
    · exact Nat.le_refl _
    · cases none
  | @next instruction p q later rest ih =>
    -- The time after the first step stands for that step in the rest.
    have first : IsGreatest {moment | moment = p.now ∨ instruction.WaitsFor index start moment}
        (Step.make host index start p instruction).after.now :=
      Instruction.isGreatest_now host start p
    constructor
    · rcases ih.1 with unchanged | ⟨step, among, waits⟩
      · rw [unchanged]
        rcases first.1 with before | waits
        · exact Or.inl before
        · exact Or.inr ⟨_, List.mem_cons_self, waits⟩
      · exact Or.inr ⟨step, List.mem_cons_of_mem _ among, waits⟩
    · have onwards := ih.2 (Or.inl rfl)
      rintro moment (rfl | ⟨step, among, waits⟩)
      · exact (first.2 (Or.inl rfl)).trans onwards
      · rcases List.mem_cons.1 among with rfl | among
        · exact (first.2 (Or.inr waits)).trans onwards
        · exact ih.2 (Or.inr ⟨step, among, waits⟩)

/-- **Waits count from the start.**  After each instruction that a runner executes, in whichever of
its scripts, the clock shows the latest moment that has been waited for up to then, or the time at
which the first script began if that is later.  A wait fails exactly if the clock does not reach its
moment, which no other instruction fails for; a moment that has passed changes nothing.  The outcome
of each script is that of the last of its instructions that was executed. -/
theorem waits_count_from_start (host : Host σ) (index : UInt32) (start : Nat)
    (scripts : List Script) (p : Progress σ) :
    (∀ first step later, steps host index start scripts p = first ++ step :: later →
      IsGreatest {moment | moment = p.now ∨ ∃ other ∈ first ++ [step],
        other.instruction.WaitsFor index start moment} step.after.now ∧
      (step.failure = some .clockRange ↔ ∃ seconds,
        step.instruction.wait? index = some seconds ∧ lastSecond < start + seconds.toNat) ∧
      ∀ seconds, step.instruction.wait? index = some seconds →
        start + seconds.toNat ≤ lastSecond → step.failure = none ∧
          (start + seconds.toNat ≤ step.before.now → step.after = step.before)) ∧
    ∀ list q, runList host index start list q =
      ((stepsOf host index start list q).getLast?.map fun step => (step.after, step.failure)).getD
        (q, none) := by
  refine ⟨?_, runList_eq_last host index start⟩
  intro first step later whole
  obtain ⟨q, traced⟩ := traced_steps host index start scripts p
  rw [whole] at traced
  obtain ⟨made, leads⟩ := traced.split
  refine ⟨leads.isGreatest_now, ?_, ?_⟩
  · rw [made]
    exact Instruction.execute_eq_clockRange_iff host start step.before
  · intro seconds waits reached
    have ends : (step.after, step.failure) =
        step.instruction.execute host index start step.before := by
      rw [made]
      rfl
    rw [Instruction.execute_of_wait? host start step.before waits, if_pos reached] at ends
    split_ifs at ends with past
    · exact ⟨congrArg Prod.snd ends, fun _ => congrArg Prod.fst ends⟩
    · exact ⟨congrArg Prod.snd ends, fun passed => absurd passed past⟩

/-- A runner made at second 10 is given two scripts at second 12, with waits that do not come in the
order of their moments, one of which is for another node. -/
theorem waits_of_two_scripts :
    let host : Host Unit :=
      { add := fun s _ _ _ => (s, .ok true)
        publish := fun s _ _ _ => (s, none)
        connect := fun s _ => (s, some .closed)
        idle := id }
    let scripts : List Script :=
      [⟨[.waitUntil 5, .waitUntil 3, .connect [2], .waitUntil 60]⟩,
        ⟨[.onlyOn 2 (.waitUntil 90), .waitUntil 1, .waitUntil 7]⟩]
    (steps host 1 10 scripts ⟨(), 12⟩).map (·.after.now) = [15, 15, 15, 15, 15, 17] ∧
      ∀ first step later, steps host 1 10 scripts ⟨(), 12⟩ = first ++ step :: later →
        IsGreatest {moment | moment = 12 ∨ ∃ other ∈ first ++ [step],
          other.instruction.WaitsFor 1 10 moment} step.after.now := by
  intro host scripts
  refine ⟨by decide +kernel, ?_⟩
  intro first step later whole
  exact ((waits_count_from_start host 1 10 scripts ⟨(), 12⟩).1 first step later whole).1

/-- A script that waits for the greatest number of seconds that it may hold. -/
def farthestWait : String :=
  "\x7b\"script\":[\x7b\"type\":\"waitUntil\",\"elapsedSeconds\":18446744073709551615\x7d]\x7d"

/-- The script is read, and its run fails because the clock does not reach that far. -/
theorem farthest_wait_breaks_off :
    let host : Host Unit :=
      { add := fun s _ _ _ => (s, .ok true)
        publish := fun s _ _ _ => (s, none)
        connect := fun s _ => (s, none)
        idle := id }
    let script : Script := ⟨[.waitUntil 18446744073709551615]⟩
    ofText farthestWait = .ok script ∧
      script.run host 0 ⟨(), 0⟩ = (⟨(), 0⟩, some .clockRange) := by
  intro host script
  exact ⟨by cbv, by rfl⟩

end Script

end PartExchange
