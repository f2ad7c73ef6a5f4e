import CoverageRegistry.Decimal
import CoverageRegistry.Event
import CoverageRegistry.Text.Alphanumeric
import CoverageRegistry.Text.Blank
import CoverageRegistry.TextMap

/-!
# Log filters

A log filter says how much of each part of the program the log shows. It has one rule per beginning
of a target; of the rules whose beginning fits an event's target the longest decides, and an event
that no rule fits is not shown. A filter is written as rules between commas: a level for everything,
a target for all of it, or a target and its level with an equals sign between them. A bracket after
a target would ask for more than these, and is refused.
-/
namespace CoverageRegistry

/-- How much of each part of the program is shown, by the beginning of its target. -/
structure LogFilter where
  rules : TextMap Nat
  deriving DecidableEq, Repr

namespace LogFilter

/-- How much a target that stands alone shows: everything. -/
def everything : Nat := Level.trace.verbosity

/-- The words for how much is shown, with what they mean. -/
def words : List (String × Nat) :=
  [("off", 0), ("error", 1), ("warn", 2), ("info", 3), ("debug", 4), ("trace", 5)]

/-- The number that digits spell, with or without a plus sign in front. -/
def number? (word : List Char) : Option Nat :=
  let digits := if word.head? == some '+' then word.tail else word
  if digits.isEmpty || !digits.all Char.isDigit then none else some (Decimal.ofDigits digits)

/-- How much a word shows; the case of its letters does not count. Up to `everything` a number shows
as much as it says. -/
def verbosity? (word : List Char) : Option Nat :=
  match number? word with
  | some n => if n ≤ everything then some n else none
  | none =>
    (words.find? fun entry => entry.1.toList = word.map Char.toLower).map Prod.snd

/-- Whether a rule may start with a character. -/
def canStart (c : Char) : Bool :=
  c = '-' || c = ':' || c = '_' || Text.isAlphanumeric c

/-- Reads one rule: the beginning of its targets, which is empty for all targets, and how much it
shows. Blanks are part of the words of a rule, so a level among blanks is none; before a target that
comes with its level they are refused. -/
def rule? (text : List Char) : Option (String × Nat) := do
  let start ← (Text.trimStart text).head?
  guard (canStart start)
  let target := text.takeWhile (· ≠ '=')
  guard (!target.contains '[')
  match text.dropWhile (· ≠ '=') with
  | [] =>
    return match verbosity? text with
    | some verbosity => ("", verbosity)
    | none => (String.ofList text, everything)
  | _ :: word =>
    guard (text.head? = some start)
    let verbosity ← if word.isEmpty then some everything else verbosity? word
    return (String.ofList target, verbosity)

/-- The filter of a list of rules; of two rules for one target the later one counts. Without any
rule errors alone are shown. -/
def ofRules (rules : List (String × Nat)) : LogFilter :=
  if rules.isEmpty then ⟨.ofList [("", Level.error.verbosity)]⟩ else ⟨.ofList rules⟩

/-- Reads a filter. -/
def parse? (text : String) : Option LogFilter :=
  (((text.toList.splitOn ',').filter fun piece => !piece.isEmpty).mapM rule?).map ofRules

/-- The filter of a program that is asked to log up to a level: its own parts at that level, and
warnings of anything else. -/
def upTo (level : Level) : LogFilter :=
  .ofRules (("", Level.warn.verbosity) ::
    ["covreg_core", "covreg_sensors", "covreg"].map fun target => (target, level.verbosity))

/-- How much is shown of a target. The rules that fit are beginnings of one text, so in the order of
their texts the longest comes last. -/
def verbosity (filter : LogFilter) (target : String) : Nat :=
  ((filter.rules.entries.filter fun rule => rule.1.toList.isPrefixOf target.toList).getLast?.map
    Prod.snd).getD 0

/-- Whether an event is shown. -/
def shows (filter : LogFilter) (event : Event) : Bool :=
  event.level.verbosity ≤ filter.verbosity event.target

example :
    (parse? "warn,covreg=+3,covreg_core=OFF").map (fun filter =>
      ["covreg_core::obs", "covreg_sensors", "x"].map filter.verbosity) = some [0, 3, 2] := by
  decide +kernel

example : rule? "debug".toList = some ("", 4) := by decide +kernel
example : rule? " debug".toList = some (" debug", everything) := by decide +kernel
example : rule? "covreg=".toList = some ("covreg", everything) := by decide +kernel
example : rule? "covreg= debug".toList = none := by decide +kernel
example : rule? " covreg=debug".toList = none := by decide +kernel
example : rule? "6".toList = some ("6", everything) := by decide +kernel

end LogFilter

end CoverageRegistry
