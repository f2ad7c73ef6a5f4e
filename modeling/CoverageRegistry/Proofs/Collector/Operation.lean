import CoverageRegistry.Proofs.Collector.Offer
import CoverageRegistry.Proofs.Report.Build

/-!
# Runs of a collector

Everything that can be asked of a collector is an `Operation`: the four ways to
contribute, sealing, the plain reads, and the reads of aggregators that share the
collector. A run is a list of operations. `Collector.after` is the collector at its
end and `Collector.history` its steps, each with the collector it found and the
answer it got. Main statements, one for each kind of operation and one for all:

* `Contribution.add_eq`: all ways to contribute are one offer behind one check of
  the scope;
* `Operation.buckets_perform`: no other operation touches the buckets;
* `Operation.collector_cases`: what an operation can do to a collector.
-/

namespace CoverageRegistry

/-! ## Contributions -/

/-- A path that is offered, and the module it comes from. -/
structure Item where
  path : Path
  module : Option ModuleKey
  deriving DecidableEq, Repr

/-- The entry that an item becomes in a bucket. -/
def Item.entry (key : BucketKey) (item : Item) : ReportEntry :=
  ⟨item.path, item.module, key.kind, key.scope⟩

/-- A contribution, by the way it is made. -/
inductive Contribution where
  | paths (kind : ReportKind) (scope : Option TestScope) (paths : List Path)
  | modulePaths (module : ModuleKey) (kind : ReportKind) (scope : Option TestScope)
      (paths : List Path)
  | protobufDirs (paths : List Path)
  | roslynReports (reports : List RoslynReport)

namespace Contribution

/-- Makes a contribution. -/
def add (c : Collector) : Contribution → Collector.Answer (Except RegistryError Nat)
  | paths kind scope items => c.addPaths kind scope items
  | modulePaths module kind scope items => c.addModulePaths module kind scope items
  | protobufDirs items => c.addProtobufDirs items
  | roslynReports items => c.addRoslynReports items

/-- The kind and the scope that a contribution names. -/
def target : Contribution → BucketKey
  | paths kind scope _ => ⟨kind, scope⟩
  | modulePaths _ kind scope _ => ⟨kind, scope⟩
  | protobufDirs _ => .protobuf
  | roslynReports _ => .roslyn

/-- The items that a contribution offers. -/
def items : Contribution → List Item
  | paths _ _ items => items.map fun path => ⟨path, none⟩
  | modulePaths module _ _ items => items.map fun path => ⟨path, some module⟩
  | protobufDirs items => items.map fun path => ⟨path, none⟩
  | roslynReports items => items.map fun report => ⟨report.path, some report.module⟩

/-- The entries that a contribution offers to its bucket. -/
def entries (x : Contribution) : List ReportEntry :=
  x.items.map (Item.entry x.target)

theorem contribute_eq (c : Collector) (module : Option ModuleKey) (key : BucketKey)
    (items : List Path) :
    c.contribute module key.kind key.scope items
      = if key.Admissible then
          c.offer key ((items.map fun path => (⟨path, module⟩ : Item)).map
            (Item.entry key))
        else ⟨.error (.scopeMismatch key.kind key.scope), c, []⟩ := by
  unfold Collector.contribute BucketKey.make
  by_cases h : key.Admissible
  · rw [if_pos h, if_pos h, List.map_map]
    rfl
  · rw [if_neg h, if_neg h]

/-- Every contribution checks the scope and then makes one offer. -/
theorem add_eq (c : Collector) (x : Contribution) :
    x.add c = if x.target.Admissible then c.offer x.target x.entries
      else ⟨.error (.scopeMismatch x.target.kind x.target.scope), c, []⟩ := by
  cases x with
  | paths kind scope items => exact contribute_eq c none ⟨kind, scope⟩ items
  | modulePaths module kind scope items =>
    exact contribute_eq c (some module) ⟨kind, scope⟩ items
  | protobufDirs items => exact contribute_eq c none .protobuf items
  | roslynReports items =>
    rw [if_pos (show (roslynReports items).target.Admissible from
      BucketKey.admissible_roslyn), entries, Contribution.items, List.map_map]
    rfl

theorem add_of_not_admissible {x : Contribution} (h : ¬ x.target.Admissible)
    (c : Collector) :
    x.add c = ⟨.error (.scopeMismatch x.target.kind x.target.scope), c, []⟩ := by
  rw [add_eq, if_neg h]

theorem add_of_isSealed {c : Collector} (hsealed : c.isSealed = true) {x : Contribution}
    (h : x.target.Admissible) :
    (x.add c).result = .error (.registrySealed x.target.kind x.target.scope)
      ∧ (x.add c).collector = c := by
  rw [add_eq, if_pos h]
  exact Collector.offer_of_isSealed hsealed x.target x.entries

theorem accepted_add {c : Collector} (hopen : c.isSealed = false) (htracks : c.Tracks)
    {x : Contribution} (h : x.target.Admissible) :
    c.Accepted x.target x.entries (x.add c) := by
  rw [add_eq, if_pos h]
  exact Collector.accepted_offer hopen htracks x.target x.entries

/-- A contribution is accepted exactly when its scope fits its kind and the collector
is open. -/
theorem exists_ok_add_iff {c : Collector} (htracks : c.Tracks) (x : Contribution) :
    (∃ n, (x.add c).result = .ok n)
      ↔ x.target.Admissible ∧ c.isSealed = false := by
  constructor
  · rintro ⟨n, hn⟩
    by_cases hadmissible : x.target.Admissible
    · cases hsealed : c.isSealed with
      | false => exact ⟨hadmissible, rfl⟩
      | true =>
        rw [(add_of_isSealed hsealed hadmissible).1] at hn
        cases hn
    · rw [add_of_not_admissible hadmissible] at hn
      cases hn
  · rintro ⟨hadmissible, hopen⟩
    exact ⟨_, (accepted_add hopen htracks hadmissible).result⟩

end Contribution

/-! ## Operations -/

/-- A plain read. -/
inductive Query where
  | entries (kind : ReportKind) (scope : Option TestScope)
  | snapshot (kind : ReportKind) (scope : Option TestScope)
  | roslynReports
  | phase
  | isSealed
  | totalPaths
  | language

/-- What can be asked of a collector. -/
inductive Operation where
  | contribute (contribution : Contribution)
  | sealUp
  | ask (query : Query)
  | buildReportSet (reader : Aggregator) (now : Timestamp) (language : String)
      (scope : TestScope)
  | buildAll (reader : Aggregator) (now : Timestamp) (language : String)
  | analyzerReports

/-- What an operation answers. -/
inductive Reply where
  | added (result : Except RegistryError Nat)
  | sealedUp (first : Bool)
  | entries (entries : List ReportEntry)
  | paths (paths : List Path)
  | roslynReports (reports : List RoslynReport)
  | phase (phase : Phase)
  | isSealed (answer : Bool)
  | totalPaths (count : Nat)
  | language (language : Option String)
  | reportSet (result : Except RegistryError CoverageReportSet)
  | reportSets (result : Except RegistryError (List CoverageReportSet))
  | analyzerSet (reports : AnalyzerReportSet)

/-- The answer to a plain read. -/
def Query.reply (c : Collector) : Query → Reply
  | entries kind scope => .entries (c.entries kind scope)
  | snapshot kind scope => .paths (c.snapshot kind scope)
  | roslynReports => .roslynReports c.roslynReports
  | phase => .phase c.phase
  | isSealed => .isSealed c.isSealed
  | totalPaths => .totalPaths c.totalPaths
  | language => .language c.language

/-- The same answer with another result. -/
def Collector.Answer.map {α β : Type} (f : α → β) (answer : Collector.Answer α) :
    Collector.Answer β :=
  ⟨f answer.result, answer.collector, answer.events⟩

/-- Performs an operation. -/
def Operation.perform (c : Collector) : Operation → Collector.Answer Reply
  | contribute x => (x.add c).map .added
  | sealUp => c.sealUp.map .sealedUp
  | ask query => ⟨query.reply c, c, []⟩
  | buildReportSet reader now language scope =>
      (c.buildReportSet reader.table reader.policy now language scope).map .reportSet
  | buildAll reader now language =>
      (c.buildAll reader.table reader.policy now language).map .reportSets
  | analyzerReports => c.analyzerReports.map .analyzerSet

/-- The operations that seal a collector: sealing it, reading the analyzer outputs,
and reading report sets, where the language checks pass. -/
def Operation.Seals (c : Collector) : Operation → Prop
  | contribute _ => False
  | sealUp => True
  | ask _ => False
  | buildReportSet reader _ language _ => c.Admits reader.table language
  | buildAll reader _ language => c.Admits reader.table language
  | analyzerReports => True

/-- An operation other than a contribution leaves the collector closed or as it
was: closed exactly when it seals. -/
theorem Operation.collector_perform {c : Collector} {op : Operation}
    (h : ∀ x, op ≠ .contribute x) :
    (op.Seals c ∧ (op.perform c).collector = c.closed)
      ∨ (¬ op.Seals c ∧ (op.perform c).collector = c) := by
  cases op with
  | contribute x => exact absurd rfl (h x)
  | sealUp => exact .inl ⟨trivial, c.sealUp_collector⟩
  | ask query => exact .inr ⟨id, rfl⟩
  | buildReportSet reader now language scope =>
    by_cases hadmits : c.Admits reader.table language
    · exact .inl ⟨hadmits,
        (Collector.buildReportSet_of_admits hadmits reader.policy now scope).1⟩
    · refine .inr ⟨hadmits, ?_⟩
      show (c.buildReportSet reader.table reader.policy now language scope).collector = c
      rw [Collector.buildReportSet_of_not_admits hadmits]
  | buildAll reader now language =>
    by_cases hadmits : c.Admits reader.table language
    · exact .inl ⟨hadmits, (Collector.buildAll_of_admits hadmits reader.policy now).1⟩
    · exact .inr ⟨hadmits, (Collector.buildScopes_of_not_admits hadmits reader.policy now
        .unit [.integration]).2⟩
  | analyzerReports => exact .inl ⟨trivial, c.analyzerReports_eq.2⟩

theorem Operation.buckets_perform {c : Collector} {op : Operation}
    (h : ∀ x, op ≠ .contribute x) : (op.perform c).collector.buckets = c.buckets := by
  rcases op.collector_perform h with ⟨-, hc⟩ | ⟨-, hc⟩ <;> rw [hc]
  rfl

/-- Everything that an operation can do to a collector: nothing, closing it, or putting a
batch into a bucket, which only a contribution to an open collector does. -/
theorem Operation.collector_cases (c : Collector) (op : Operation) :
    (op.perform c).collector = c
      ∨ (op.perform c).collector = c.closed
      ∨ ∃ x, op = .contribute x ∧ c.isSealed = false ∧ x.target.Admissible ∧ x.entries ≠ []
        ∧ (op.perform c).collector = c.stored x.target x.entries := by
  by_cases hcontribute : ∃ x, op = .contribute x
  · obtain ⟨x, rfl⟩ := hcontribute
    have hadd : ((contribute x).perform c).collector = (x.add c).collector := rfl
    rw [hadd, x.add_eq]
    split
    · rename_i hadmissible
      rcases c.offer_cases x.target x.entries with hc | ⟨hopen, hentries, hc⟩
      · exact .inl hc
      · exact .inr (.inr ⟨x, rfl, hopen, hadmissible, hentries, hc⟩)
    · exact .inl rfl
  · rcases op.collector_perform fun x hx => hcontribute ⟨x, hx⟩ with ⟨-, hc⟩ | ⟨-, hc⟩
    · exact .inr (.inl hc)
    · exact .inl hc

/-- No operation binds a collector to another language. -/
theorem Collector.language_perform (c : Collector) (op : Operation) :
    (op.perform c).collector.language = c.language := by
  rcases op.collector_cases c with hc | hc | ⟨x, -, -, -, -, hc⟩ <;> rw [hc]
  · rfl
  · rfl

/-! ## Runs -/

/-- A step of a run: the operation, the collector it found, and its answer. -/
structure Step where
  operation : Operation
  before : Collector
  answer : Collector.Answer Reply

namespace Collector

/-- A fresh collector, bound to a language or to none. -/
def fresh : Option String → Collector
  | none => unbound
  | some language => forLanguage language

theorem fresh_eq (language : Option String) : fresh language = ⟨language, .init, []⟩ := by
  cases language <;> rfl

/-- The collector after a run. -/
def after (c : Collector) (ops : List Operation) : Collector :=
  ops.foldl (fun c op => (op.perform c).collector) c

/-- The steps of a run. -/
def history (c : Collector) : List Operation → List Step
  | [] => []
  | op :: ops => ⟨op, c, op.perform c⟩ :: (op.perform c).collector.history ops

@[simp] theorem after_nil (c : Collector) : c.after [] = c := rfl

@[simp] theorem after_cons (c : Collector) (op : Operation) (ops : List Operation) :
    c.after (op :: ops) = (op.perform c).collector.after ops := rfl

theorem after_append (c : Collector) (xs ys : List Operation) :
    c.after (xs ++ ys) = (c.after xs).after ys :=
  List.foldl_append ..

/-- What every operation keeps, a run keeps. -/
theorem after_induction {P : Collector → Prop}
    (hstep : ∀ {c : Collector}, P c → ∀ op : Operation, P (op.perform c).collector)
    {c : Collector} (h : P c) (ops : List Operation) : P (c.after ops) := by
  induction ops generalizing c with
  | nil => exact h
  | cons op ops ih => exact ih (hstep h op)

theorem language_after (c : Collector) (ops : List Operation) :
    (c.after ops).language = c.language := by
  refine after_induction (P := fun d => d.language = c.language) (fun h op => ?_) rfl ops
  exact (language_perform _ op).trans h

/-- A step of a run is its operation, performed after those before it. -/
theorem mem_history {step : Step} :
    ∀ {c : Collector} {ops : List Operation}, step ∈ c.history ops →
      ∃ before op later, ops = before ++ op :: later
        ∧ step = ⟨op, c.after before, op.perform (c.after before)⟩ := by
  intro c ops
  induction ops generalizing c with
  | nil => intro h; cases h
  | cons op ops ih =>
    intro h
    rcases List.mem_cons.mp h with rfl | h
    · exact ⟨[], op, ops, rfl, rfl⟩
    · obtain ⟨before, op', later, rfl, rfl⟩ := ih h
      exact ⟨op :: before, op', later, rfl, rfl⟩

end Collector

end CoverageRegistry
