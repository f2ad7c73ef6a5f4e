/-!
# Plain text

What a text shows when it is written where its control sequences cannot be obeyed: the characters
outside of them. A sequence starts with an escape, and what follows the escape decides where it
ends. The controls that lay out a text are shown, also inside a sequence. There they interrupt it:
the characters up to the next control that is not shown are outside, and the sequence goes on
after them.
-/
namespace CoverageRegistry.Text

/-- Whether a character lies between two code points. -/
def isWithin (low high : Nat) (c : Char) : Bool :=
  low ≤ c.toNat && c.toNat ≤ high

/-- Whether a character is a control that lays out a text. -/
def isLayout (c : Char) : Bool :=
  c = '\t' || c = '\n' || c = '\x0c' || c = '\r'

/-- Whether a character is shown outside of sequences. -/
def isShown (c : Char) : Bool :=
  isLayout c || (0x20 ≤ c.toNat && c.toNat ≠ 0x7F)

/-- Where in a sequence a text stands. -/
inductive Place where
  | outside
  /-- After an escape. -/
  | escape
  /-- After an escape and characters that only lead to the one that ends the sequence. -/
  | intermediate
  /-- In the parameters of a control sequence. -/
  | parameters
  /-- In a command to the system, which a bell ends. -/
  | command
  /-- At the start of a device string. -/
  | device
  /-- In the parameters of a device string. -/
  | deviceParameters
  /-- Between the parameters and the content of a device string. -/
  | deviceIntermediate
  /-- In the content of a string, which lasts up to its terminator. -/
  | content
  deriving DecidableEq, Repr

namespace Place

/-- The place after a character. An escape starts a sequence anywhere, and two controls cancel it.
The octet `9C` ends the content of a string, also as a part of a character. -/
def next (place : Place) (c : Char) : Place :=
  if c = '\x1b' then escape
  else if c = '\x18' || c = '\x1a' then outside
  else
    match place with
    | outside => outside
    | escape =>
      if c = '[' then parameters
      else if c = ']' then command
      else if c = 'P' then device
      else if c = 'X' || c = '^' || c = '_' then content
      else if isWithin 0x20 0x2F c then intermediate
      else if isWithin 0x30 0x7E c then outside
      else escape
    | intermediate => if isWithin 0x30 0x7E c then outside else intermediate
    | parameters => if isWithin 0x40 0x7E c then outside else parameters
    | command => if c = '\x07' then outside else command
    | device =>
      if isWithin 0x20 0x2F c then deviceIntermediate
      else if isWithin 0x30 0x3F c then deviceParameters
      else if isWithin 0x40 0x7E c then content
      else device
    | deviceParameters =>
      if isWithin 0x20 0x2F c then deviceIntermediate
      else if isWithin 0x3C 0x7E c then content
      else deviceParameters
    | deviceIntermediate => if isWithin 0x30 0x7E c then content else deviceIntermediate
    | content => if (String.utf8EncodeChar c).contains 0x9C then outside else content

/-- Whether a character is shown at a place. -/
def shows (place : Place) (c : Char) : Bool :=
  match place with
  | outside => isShown c
  | escape | intermediate | parameters => isLayout c
  | command | device | deviceParameters | deviceIntermediate | content => false

theorem next_outside {c : Char} (h : isShown c = true) : outside.next c = outside := by
  have h1 : c ≠ '\x1b' := by rintro rfl; exact absurd h (by decide)
  simp [next, h1]

theorem isShown_of_shows {place : Place} {c : Char} (h : place.shows c = true) :
    isShown c = true := by
  cases place <;> simp_all [shows, isShown]

end Place

/-- What a text shows that goes on from a place. In an interrupted sequence the place is the one to
go on from; a character beyond ASCII ends such a sequence. -/
def plainFrom (place : Place) (interrupted : Bool) : List Char → List Char
  | [] => []
  | c :: rest =>
    if interrupted && isShown c then
      c :: plainFrom (if c.toNat < 0x80 then place else .outside) true rest
    else if place.shows c then c :: plainFrom (place.next c) true rest
    else plainFrom (place.next c) false rest

/-- What a text shows. -/
def plain (text : String) : String :=
  String.ofList (plainFrom .outside false text.toList)

/-- Only characters that are shown are left. -/
theorem isShown_of_mem_plainFrom {place : Place} {interrupted : Bool} {cs : List Char} {c : Char}
    (h : c ∈ plainFrom place interrupted cs) : isShown c = true := by
  fun_induction plainFrom place interrupted cs <;>
    grind [Place.isShown_of_shows]

/-- A text without anything to obey is left as it is. -/
theorem plainFrom_outside {cs : List Char} (h : ∀ c ∈ cs, isShown c = true) (interrupted : Bool) :
    plainFrom .outside interrupted cs = cs := by
  induction cs generalizing interrupted with
  | nil => rfl
  | cons c rest ih =>
    have hc := h c (by simp)
    have hrest := ih fun d hd => h d (by simp [hd])
    cases interrupted <;> simp [plainFrom, Place.shows, Place.next_outside hc, hc, hrest]

example : plain "a\x1b[38;5;1mb\x06c" = "abc" := by decide +kernel
example : plain "x\x1b]8;;u\x1b\\y" = "xy" := by decide +kernel
example : plain "\x1b[1\n2;3\x07mx" = "\n2;3x" := by decide +kernel

end CoverageRegistry.Text
