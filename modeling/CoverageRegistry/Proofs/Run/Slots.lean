import CoverageRegistry.Run
import Mathlib.Data.List.Basic

/-!
# Slots for the records of a run

Sensors run at the same time and answer in any order, so a record is kept in a slot that
belongs to its pair from the start. It says that the sensor was skipped, or else that it
did not complete, which stays so unless an answer is written over it. An answer names its
slot; a sensor that stops without one names none (`Completion`).

The invariant of the slots is that of an array that is written once: completions of
different slots commute (`Completion.fill_comm`), so their order does not matter, and in
the order of the slots each is written where the next one is due (`foldl_fill`). Hence
the slots hold in the end the record of each execution in its place (`collect_perm`).
-/

namespace CoverageRegistry.AnalysisRun

/-- The module and the sensor of an execution. -/
def Execution.pair (execution : Execution) : Module × Sensor :=
  (execution.module, execution.sensor)

/-- The record that a pair starts with. -/
def slot (pair : Module × Sensor) : SensorReport :=
  ⟨pair.2.descriptor.name, pair.1.key,
    if applies pair then .failed noAnswer else .skipped, .none, 0⟩

/-- What comes back from a sensor: an answer with its place and its time, or only that it
stopped. -/
inductive Completion where
  | answered (place : Nat) (result : Except RegistryError SensorOutcome) (millis : Nat)
  | stopped

namespace Completion

/-- The slot that a completion names. -/
def place? : Completion → Option Nat
  | answered place _ _ => some place
  | stopped => none

/-- Writes an answer over a record. -/
def write (result : Except RegistryError SensorOutcome) (millis : Nat)
    (report : SensorReport) : SensorReport :=
  match result with
  | .ok outcome => { report with status := .finished, outcome := outcome, millis := millis }
  | .error error => { report with status := .failed error.message, millis := millis }

/-- Writes a completion into the slot that it names. -/
def fill (slots : List SensorReport) : Completion → List SensorReport
  | answered place result millis => slots.modify place (write result millis)
  | stopped => slots

/-- The event of an answer of a sensor. -/
def told (sensor : String) (result : Except RegistryError SensorOutcome) (millis : Nat) :
    Event :=
  match result with
  | .ok outcome => .sensorFinished sensor outcome.contributed millis
  | .error error => .sensorFailed sensor error.message

/-- The event of a completion; the sensor is the one of the slot. -/
def event (slots : List SensorReport) : Completion → Event
  | answered place result millis =>
    told (((slots[place]?).map SensorReport.sensor).getD "") result millis
  | stopped => .sensorAborted

/-- Takes completions as they come; answers with the slots and the events. -/
def collect (slots : List SensorReport) : List Completion → List SensorReport × List Event
  | [] => (slots, [])
  | completion :: later =>
    let others := collect (completion.fill slots) later
    (others.1, completion.event slots :: others.2)

/-! ## Completions in any order -/

/-- No completion renames a sensor. -/
theorem event_fill (slots : List SensorReport) (earlier later : Completion) :
    later.event (earlier.fill slots) = later.event slots := by
  cases earlier with
  | stopped => rfl
  | answered place result millis =>
    cases later with
    | stopped => rfl
    | answered place' result' millis' =>
      have hsensor : ((fill slots (answered place result millis))[place']?).map
          SensorReport.sensor = (slots[place']?).map SensorReport.sensor := by
        rw [fill, List.getElem?_modify]
        cases slots[place']? with
        | none => rfl
        | some report =>
          simp only [Option.map_eq_map, Option.map_some, Option.some.injEq]
          split
          · cases result <;> rfl
          · rfl
      rw [event, event, hsensor]

theorem collect_eq (completions : List Completion) :
    ∀ slots : List SensorReport,
      collect slots completions = (completions.foldl fill slots, completions.map (event slots)) := by
  induction completions with
  | nil => intro slots; rfl
  | cons completion later ih =>
    intro slots
    rw [collect, ih, List.foldl_cons, List.map_cons]
    exact congrArg (fun events => (_, _ :: events))
      (List.map_congr_left fun other _ => event_fill slots completion other)

theorem fill_comm {x y : Completion} (h : ∀ place, x.place? = some place → y.place? ≠ some place)
    (slots : List SensorReport) : y.fill (x.fill slots) = x.fill (y.fill slots) := by
  cases x with
  | stopped => rfl
  | answered place result millis =>
    cases y with
    | stopped => rfl
    | answered place' result' millis' =>
      have hne : place ≠ place' := fun heq => h place rfl (congrArg some heq.symm)
      exact List.modify_modify_ne _ _ slots hne

end Completion

open Completion

/-! ## The completions of executions -/

/-- What comes back from an execution at a place; nothing where the sensor was skipped. -/
def Execution.completion? (execution : Execution) (elapsed place : Nat) : Option Completion :=
  match execution.ending with
  | none => none
  | some (.finished outcome) => some (.answered place (.ok outcome) elapsed)
  | some (.failed error) => some (.answered place (.error error) elapsed)
  | some .aborted => some .stopped

/-- What comes back from executions, in their order. -/
def completions (elapsed : Nat) (executions : List Execution) : List Completion :=
  executions.zipIdx.flatMap fun entry => (entry.1.completion? elapsed entry.2).toList

/-- A pair is skipped exactly where the sensor does not apply. -/
def Execution.Scheduled (execution : Execution) : Prop :=
  execution.ending = none ↔ applies execution.pair = false

/-- An execution names its own place only. -/
theorem eq_of_place?_eq {elapsed place : Nat} {executions : List Execution} {x y : Completion}
    (hx : x ∈ completions elapsed executions) (hy : y ∈ completions elapsed executions)
    (hxplace : x.place? = some place) (hyplace : y.place? = some place) : x = y := by
  have hown : ∀ {z : Completion}, z ∈ completions elapsed executions →
      z.place? = some place → ∃ execution, executions[place]? = some execution
        ∧ execution.completion? elapsed place = some z := by
    intro z hz hplace
    obtain ⟨⟨execution, i⟩, hentry, hcompletion⟩ := List.mem_flatMap.mp hz
    rw [Option.mem_toList] at hcompletion
    obtain rfl : i = place := by
      rw [Execution.completion?] at hcompletion
      split at hcompletion <;> cases hcompletion <;> cases hplace <;> rfl
    exact ⟨execution, List.mem_zipIdx_iff_getElem?.mp hentry, hcompletion⟩
  obtain ⟨execution, hexecution, hcompletion⟩ := hown hx hxplace
  obtain ⟨other, hother, hcompletion'⟩ := hown hy hyplace
  rw [hexecution] at hother
  obtain rfl := Option.some.inj hother
  exact Option.some.inj (hcompletion.symm.trans hcompletion')

/-- A completion that is due at the end of the records turns the slot there into the
record of its execution. -/
theorem fill_completion {execution : Execution} (h : execution.Scheduled) (elapsed : Nat)
    (before after : List SensorReport) :
    (execution.completion? elapsed before.length).toList.foldl fill
        (before ++ slot execution.pair :: after)
      = before ++ execution.report elapsed :: after := by
  have hmodify : ∀ f : SensorReport → SensorReport,
      (before ++ slot execution.pair :: after).modify before.length f
        = before ++ f (slot execution.pair) :: after := by
    intro f
    induction before with
    | nil => rfl
    | cons report before ih => exact congrArg (report :: ·) ih
  obtain ⟨module, sensor, ending⟩ := execution
  have happlies : applies (module, sensor) = ending.isSome := by
    cases ending with
    | none => exact h.mp rfl
    | some ending =>
      exact eq_true_of_ne_false fun hnot => Option.some_ne_none ending (h.mpr hnot)
  cases ending with
  | none =>
    show before ++ slot (module, sensor) :: after = _
    rw [slot, happlies]
    rfl
  | some ending =>
    cases ending with
    | finished outcome => exact hmodify _
    | failed error => exact hmodify _
    | aborted =>
      show before ++ slot (module, sensor) :: after = _
      rw [slot, happlies]
      rfl

/-- Completions that come in the order of the slots write the records one by one. -/
theorem foldl_fill (elapsed : Nat) (executions : List Execution) :
    ∀ before : List SensorReport, (∀ execution ∈ executions, execution.Scheduled) →
      ((executions.zipIdx before.length).flatMap fun entry =>
          (entry.1.completion? elapsed entry.2).toList).foldl fill
          (before ++ executions.map fun execution => slot execution.pair)
        = before ++ executions.map fun execution => execution.report elapsed := by
  induction executions with
  | nil => intro before _; rfl
  | cons execution executions ih =>
    intro before h
    have hrest := ih (before ++ [execution.report elapsed])
      fun other hother => h other (List.mem_cons_of_mem _ hother)
    rw [List.length_append, List.length_singleton, List.append_assoc, List.append_assoc] at hrest
    rw [List.zipIdx_cons, List.flatMap_cons, List.foldl_append, List.map_cons, List.map_cons,
      fill_completion (h execution List.mem_cons_self)]
    exact hrest

theorem map_event_completions (elapsed : Nat) (executions : List Execution) :
    (completions elapsed executions).map
        (event (executions.map fun execution => slot execution.pair))
      = executions.filterMap fun execution => execution.event? elapsed := by
  have hevent : ∀ entry ∈ executions.zipIdx,
      ((entry.1.completion? elapsed entry.2).toList).map
          (event (executions.map fun execution => slot execution.pair))
        = (entry.1.event? elapsed).toList := by
    rintro ⟨execution, place⟩ hentry
    have hslot : (executions.map fun execution => slot execution.pair)[place]?
        = some (slot execution.pair) := by
      rw [List.getElem?_map, List.mem_zipIdx_iff_getElem?.mp hentry, Option.map_some]
    generalize executions.map (fun execution => slot execution.pair) = slots at hslot
    obtain ⟨module, sensor, ending⟩ := execution
    rcases ending with - | outcome | error | -
    · rfl
    · show [event slots (.answered place (.ok outcome) elapsed)] = _
      rw [event, hslot]
      rfl
    · show [event slots (.answered place (.error error) elapsed)] = _
      rw [event, hslot]
      rfl
    · rfl
  rw [completions, List.map_flatMap, List.filterMap_eq_flatMap_toList]
  conv_rhs => rw [← List.zipIdx_map_fst 0 executions, List.flatMap_map]
  rw [List.flatMap_def, List.flatMap_def, List.map_congr_left hevent]

/-- **Slots, places and completions stay aligned**: in whatever order the executions
complete, each slot holds the record of its own execution in the end, and each execution
that was not skipped has given one event. -/
theorem collect_perm {executions : List Execution} (elapsed : Nat)
    (h : ∀ execution ∈ executions, execution.Scheduled) {arrivals : List Completion}
    (harrivals : arrivals.Perm (completions elapsed executions)) :
    let collected := collect (executions.map fun execution => slot execution.pair) arrivals
    collected.1 = executions.map (fun execution => execution.report elapsed)
      ∧ collected.2.Perm (executions.filterMap fun execution => execution.event? elapsed) := by
  intro collected
  have hcollected : collected = _ := collect_eq arrivals _
  rw [hcollected]
  refine ⟨?_, ?_⟩
  · refine (harrivals.foldl_eq' ?_ _).trans (foldl_fill elapsed executions [] h)
    intro x hx y hy slots
    by_cases heq : x = y
    · rw [heq]
    · refine fill_comm (fun place hxplace hyplace => heq ?_) slots
      exact eq_of_place?_eq (harrivals.mem_iff.mp hx) (harrivals.mem_iff.mp hy) hxplace hyplace
  · rw [← map_event_completions]
    exact harrivals.map _

end CoverageRegistry.AnalysisRun
