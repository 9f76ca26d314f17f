/-!
# Matching texts

Texts are compared with a value at their beginning, at their end or anywhere,
and the case of ASCII letters does not count. The same tests have a second form,
a **pattern** of characters in which `%` stands for any run, `_` for any one
character, and a slash takes away the meaning of the character behind it; that is
how a store compares texts. A value is turned into a pattern by putting a slash
before each of the three, and a bare `%` where the text may go on.
-/

namespace Clearance.Text

/-! ### Direct comparison -/

/-- The characters of a text, ASCII letters in lower case. -/
def folded (text : String) : List Char :=
  text.toList.map Char.toLower

/-- Whether `part` occurs somewhere in a list of characters. -/
def occursIn (part : List Char) : List Char → Bool
  | [] => part.isEmpty
  | c :: rest => part.isPrefixOf (c :: rest) || occursIn part rest

/-- The characters before the first NUL. Many functions of a store take a text to end
there. -/
def untilNul (chars : List Char) : List Char :=
  chars.takeWhile (· != '\x00')

/-! ### Patterns -/

/-- One item of a pattern. -/
inductive PatternItem
  /-- Any run of characters, also an empty one. -/
  | run
  /-- Any one character. -/
  | one
  /-- This character. -/
  | exactly (c : Char)
deriving DecidableEq, Repr

/-- The items of a written pattern. A slash at the end stands for nothing, and
makes the pattern match no text. -/
def patternItems : List Char → Option (List PatternItem)
  | [] => some []
  | '/' :: [] => none
  | '/' :: c :: rest => (patternItems rest).map (.exactly c :: ·)
  | '%' :: rest => (patternItems rest).map (.run :: ·)
  | '_' :: rest => (patternItems rest).map (.one :: ·)
  | c :: rest => (patternItems rest).map (.exactly c :: ·)

/-- Whether a test holds of some end of a list. -/
def anyTail (test : List Char → Bool) : List Char → Bool
  | [] => test []
  | c :: rest => test (c :: rest) || anyTail test rest

/-- Whether the items of a pattern match a text from its beginning to its end;
the case of ASCII letters does not count. -/
def itemsMatch : List PatternItem → List Char → Bool
  | [], text => text.isEmpty
  | .run :: items, text => anyTail (itemsMatch items) text
  | .one :: items, text =>
    match text with
    | [] => false
    | _ :: rest => itemsMatch items rest
  | .exactly c :: items, text =>
    match text with
    | [] => false
    | d :: rest => c.toLower == d.toLower && itemsMatch items rest

/-- A character as a store reads it: two that are reserved stand for an unreadable one. -/
def readable (c : Char) : Char :=
  if c = '\uFFFE' ∨ c = '\uFFFF' then '\uFFFD' else c

/-- Whether a written **pattern** matches a text. -/
def like (pattern text : List Char) : Bool :=
  match patternItems (pattern.map readable) with
  | some items => itemsMatch items (text.map readable)
  | none => false

/-- The characters of a value in a pattern, each special one behind a slash. -/
def escapedPattern (value : List Char) : List Char :=
  value.flatMap fun c => if c = '/' ∨ c = '%' ∨ c = '_' then ['/', c] else [c]

end Clearance.Text
