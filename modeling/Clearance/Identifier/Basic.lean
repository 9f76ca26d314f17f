import Clearance.Text.Quoted

/-!
# Identifiers

An **identifier** is a number of 128 bits. It is written as thirty-two lower-case
hexadecimal digits in five groups separated by hyphens, and because every
identifier has the same number of digits at the same places, the order of the
texts is the order of the numbers.

Sets of identifiers are lists in ascending order without repetitions:
`Clearance.Uuid.setOf` brings any list into that form.
-/

namespace Clearance

/-- An **identifier**: a number of 128 bits. -/
structure Uuid where
  /-- The number. -/
  number : Nat
  /-- It has at most 128 bits. -/
  number_lt : number < 2 ^ 128
deriving DecidableEq

namespace Uuid

instance : Inhabited Uuid := ⟨⟨0, by decide⟩⟩

/-- Two identifiers with one number are equal. -/
theorem ext_number {u v : Uuid} (h : u.number = v.number) : u = v := by
  cases u; cases v; cases h; rfl

/-- The identifier with the number `n`, if it has at most 128 bits. -/
def ofNat? (n : Nat) : Option Uuid :=
  if h : n < 2 ^ 128 then some ⟨n, h⟩ else none

/-! ### The written form -/

/-- Thirty-two characters in groups of eight, four, four, four and twelve, with
hyphens between the groups. -/
def grouped (cs : List Char) : List Char :=
  cs.take 8 ++ '-' :: (cs.drop 8).take 4 ++ '-' :: (cs.drop 12).take 4 ++
    '-' :: (cs.drop 16).take 4 ++ '-' :: cs.drop 20

/-- The characters of the written form. -/
def chars (u : Uuid) : List Char :=
  grouped (Text.hexDigits 32 u.number)

/-- The **written form** of an identifier. -/
def text (u : Uuid) : String :=
  String.ofList u.chars

/-! ### Sets -/

/-- `u` inserted into an ascending list, unless it is there. -/
def insert (u : Uuid) : List Uuid → List Uuid
  | [] => [u]
  | v :: rest =>
    if u.number < v.number then u :: v :: rest
    else if u.number = v.number then v :: rest
    else v :: insert u rest

/-- The **set** of the identifiers in a list: ascending, each once. -/
def setOf (ids : List Uuid) : List Uuid :=
  ids.foldr insert []

/-- Inserting adds one element and keeps the others. -/
theorem mem_insert {u v : Uuid} {ids : List Uuid} : v ∈ insert u ids ↔ v = u ∨ v ∈ ids := by
  induction ids with
  | nil => simp [insert]
  | cons w rest ih =>
    unfold insert
    split
    · simp
    · split
      · rename_i h
        have : u = w := ext_number h
        simp [this]
      · simp only [List.mem_cons, ih]
        exact or_left_comm

/-- A set has the elements of the list it was made of. -/
@[simp] theorem mem_setOf {u : Uuid} {ids : List Uuid} : u ∈ setOf ids ↔ u ∈ ids := by
  induction ids with
  | nil => simp [setOf]
  | cons v rest ih =>
    have : setOf (v :: rest) = insert v (setOf rest) := rfl
    rw [this, mem_insert, ih, List.mem_cons]

end Uuid

end Clearance
