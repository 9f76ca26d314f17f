import Clearance.Proofs.Log.Line
import Mathlib.Data.List.Forall2

/-!
# Lines that stay as they are

Two things could go wrong when an entry is shown again. What has been stored in it the first time
could be told as an extra field, or another identifier, bound in the meantime, could be told
instead of the first. Neither happens (`Clearance.Log.Entry.format_again`).

* What is stored has standard names, so the extra fields are the same as before
  (`Clearance.Log.Entry.extras_after`).
* The identifier that is stored is never empty, so it is the entry's own from then on
  (`Clearance.Log.Entry.correlation_after`).

What stands in front of the extra fields depends on attributes with standard names, and on there
being no attribute that hides the means by which the message is found
(`Clearance.Log.Entry.AgreesOn.exists_format`). So an entry without its extra fields is shown by
the first part of the line, and one with the items of its collections in another order by the
whole of it. All of this is put together in `Clearance.Log.Entry.format_exact`.
-/

namespace Clearance.Log

/-! ### Collections -/

namespace Datum

/-- The items of a collection. -/
def items? : Datum → Option (List Datum)
  | list items | tuple items | set items => some items
  | _ => none

/-- Collections with the same items in another order. -/
def Reorders (a b : Datum) : Prop :=
  ∃ items items', a.items? = some items ∧ b.items? = some items' ∧ items.Perm items'

theorem shown_of_items? {a : Datum} {items : List Datum} (h : a.items? = some items) :
    a.shown = shownItems items := by
  cases a with
  | list _ | tuple _ | set _ =>
    obtain rfl := Option.some.inj h
    rfl
  | _ => cases h

/-- **The order of the items** of a collection does not show. -/
theorem shown_eq_of_reorders {a b : Datum} (h : a.Reorders b) : a.shown = b.shown := by
  obtain ⟨items, items', ha, hb, hperm⟩ := h
  rw [shown_of_items? ha, shown_of_items? hb, shownItems, shownItems,
    Text.sorted_eq_of_perm (hperm.map _)]

end Datum

namespace Entry

variable {entry other after : Entry} {bound : Option String} {datum : Datum} {names : List String}
  {name line headline message time : String}

/-! ### What is left -/

/-- The names under which something is stored while an entry is shown. -/
def storedNames : List String := ["correlation_id", "message", "asctime", "exc_text"]

theorem lookup_withFailureText (h : entry.withFailureText = .ok after) (hname : name ≠ "exc_text") :
    after.attributes.lookup name = entry.attributes.lookup name := by
  rcases withFailureText_eq_ok h with rfl | ⟨text, rfl⟩
  · rfl
  · exact lookup_set_of_ne hname

theorem extras_withFailureText (h : entry.withFailureText = .ok after) :
    after.extras = entry.extras := by
  rcases withFailureText_eq_ok h with rfl | ⟨text, rfl⟩
  · rfl
  · exact extras_set (by decide)

theorem extras_stamped {id : Datum} : (entry.stamped id message time).extras = entry.extras := by
  rw [stamped, extras_set (by decide), extras_set (by decide), extras_set (by decide)]

/-- **The extra fields stay**: whatever is stored is standard. -/
theorem extras_after (h : entry.format bound = (.ok line, after)) :
    after.extras = entry.extras := by
  obtain ⟨message, time, stem, -, -, hafter, -⟩ := format_eq_ok.mp h
  rw [extras_withFailureText hafter, extras_stamped]

/-- Nothing is stored under other names. -/
theorem lookup_after (h : entry.format bound = (.ok line, after)) (hname : name ∉ storedNames) :
    after.attributes.lookup name = entry.attributes.lookup name := by
  obtain ⟨message, time, stem, -, -, hafter, -⟩ := format_eq_ok.mp h
  simp only [storedNames, List.mem_cons, List.not_mem_nil, or_false, not_or] at hname
  obtain ⟨hid, hmessage, htime, hfailure⟩ := hname
  rw [lookup_withFailureText hafter hfailure, stamped, lookup_set_of_ne htime,
    lookup_set_of_ne hmessage, lookup_set_of_ne hid]

/-- The identifier, the message and the time that have been found are the entry's own. -/
theorem lookup_stamped {id : Datum}
    (h : (entry.stamped id message time).withFailureText = .ok after) :
    after.attributes.lookup "correlation_id" = some id ∧
      after.attributes.lookup "message" = some (.text message) ∧
      after.attributes.lookup "asctime" = some (.text time) := by
  refine ⟨?_, ?_, ?_⟩ <;> rw [lookup_withFailureText h (by decide), stamped]
  · rw [lookup_set_of_ne (by decide), lookup_set_of_ne (by decide), lookup_set_self]
  · rw [lookup_set_of_ne (by decide), lookup_set_self]
  · exact lookup_set_self

theorem get_after (h : entry.format bound = (.ok line, after)) :
    after.get "correlation_id" = entry.correlation bound := by
  obtain ⟨message, time, stem, -, -, hafter, -⟩ := format_eq_ok.mp h
  exact get_eq (lookup_stamped hafter).1

/-- **The identifier sticks**, whatever is bound later. -/
theorem correlation_after (h : entry.format bound = (.ok line, after)) (later : Option String) :
    after.correlation later = entry.correlation bound := by
  have hfull := (isShownWith_correlation entry bound).isEmpty_eq_false
  rw [← get_after h] at hfull ⊢
  exact correlation_of_own hfull

/-- **The line stays**, and so does the entry. -/
theorem format_again (h : entry.format bound = (.ok line, after)) (later : Option String) :
    after.format later = (.ok line, after) := by
  obtain ⟨message, time, stem, hmessage, htime, hafter, hstem, hline⟩ := format_eq_ok.mp h
  have hkept : AgreesOn ["msg", "args", "getMessage", "created", "msecs"] after entry :=
    fun name hname => lookup_after h ((by decide : ∀ name ∈
      ["msg", "args", "getMessage", "created", "msecs"], name ∉ storedNames) name hname)
  -- what would be stored now is there already, under the same name
  have hstamped : after.stamped (after.correlation later) message time = after := by
    obtain ⟨hid, hmessage, htime⟩ := lookup_stamped hafter
    rw [correlation_after h, stamped, set_eq_self hid, set_eq_self hmessage, set_eq_self htime]
  refine format_eq_ok.mpr ⟨message, time, stem, ?_, ?_, ?_, hstem, hline⟩
  · rw [hkept.message_eq (by simp), hmessage]
  · rw [hkept.get_eq (show "created" ∈ _ by simp), hkept.get_eq (show "msecs" ∈ _ by simp), htime]
  · rw [hstamped]
    exact withFailureText_again hafter

/-! ### What is told about other entries -/

/-- The names on which a line depends in front of the extra fields: the standard ones, and the
one that would hide the means by which the message is found. -/
def frontNames : List String := "getMessage" :: standardAttributes

namespace AgreesOn

theorem withFailureText (h : AgreesOn names entry other)
    (hread : ["exc_info", "exc_text"] ⊆ names) (hafter : entry.withFailureText = .ok after) :
    ∃ after', other.withFailureText = .ok after' ∧ AgreesOn names after after' := by
  rw [Entry.withFailureText, h.get_eq (hread (by simp)), h.get_eq (hread (by simp))] at hafter
  rw [Entry.withFailureText]
  split at hafter
  · next hkept =>
    obtain rfl := Except.ok.inj hafter
    exact ⟨other, if_pos hkept, h⟩
  · next hneeded =>
    obtain ⟨text, htext, rfl⟩ := Outcome.map_eq_ok.mp hafter
    exact ⟨_, by rw [if_neg hneeded, htext, Except.map], h.set⟩

theorem stem_eq (h : AgreesOn names entry other) (hread : ["exc_text", "stack_info"] ⊆ names) :
    entry.stem headline = other.stem headline := by
  rw [stem, stem, h.get_eq (hread (by simp)), h.get_eq (hread (by simp))]

theorem headline_eq (h : AgreesOn names entry other)
    (hread : ["levelname", "name", "correlation_id"] ⊆ names) :
    entry.headline time message = other.headline time message := by
  rw [headline, headline, h.get_eq (hread (by simp)), h.get_eq (hread (by simp)),
    h.get_eq (hread (by simp))]

theorem correlation_eq (h : AgreesOn names entry other) (hread : "correlation_id" ∈ names) :
    entry.correlation bound = other.correlation bound := by
  simp only [correlation, h.get_eq hread]

/-- **What stands in front of the extra fields** is the same for entries that agree on these
names. -/
theorem exists_format (h : AgreesOn frontNames entry other)
    (hline : entry.format bound = (.ok line, after)) :
    ∃ message time stem after', entry.message = .ok message ∧
      timeText (entry.get "created") (entry.get "msecs") = .ok time ∧
      (∃ rest, stem = after.headline time message ++ rest) ∧ line = stem ++ entry.trailer ∧
      other.format bound = (.ok (stem ++ other.trailer), after') := by
  obtain ⟨message, time, stem, hmessage, htime, hafter, hstem, rfl⟩ := format_eq_ok.mp hline
  have hstamped : AgreesOn frontNames (entry.stamped (entry.correlation bound) message time)
      (other.stamped (other.correlation bound) message time) := by
    rw [h.correlation_eq (by decide)]
    exact h.set.set.set
  obtain ⟨after', hafter', hagree⟩ := hstamped.withFailureText (by decide) hafter
  have hother : other.format bound = (.ok (stem ++ after'.trailer), after') := by
    refine format_eq_ok.mpr ⟨message, time, stem, ?_, ?_, hafter', ?_, rfl⟩
    · rw [← h.message_eq (by decide), hmessage]
    · rw [← h.get_eq (by decide), ← h.get_eq (by decide), htime]
    · rw [← hagree.stem_eq (by decide), ← hagree.headline_eq (by decide), hstem]
  refine ⟨message, time, stem, after', hmessage, htime, exists_stem hstem, ?_, ?_⟩
  · rw [trailer, extras_after hline, trailer]
  · rw [hother, trailer, extras_after hother, trailer]

end AgreesOn

/-- An entry that is shown does not hide the means by which its message is found. -/
theorem lookup_getMessage (h : entry.format bound = (.ok line, after)) :
    entry.attributes.lookup "getMessage" = none := by
  obtain ⟨message, -, -, hmessage, -⟩ := format_eq_ok.mp h
  rw [Entry.message] at hmessage
  split at hmessage
  · cases hmessage
  · next hmute => exact Option.not_isSome_iff_eq_none.mp hmute

/-- An entry without its extra fields. -/
def withoutExtras (entry : Entry) : Entry :=
  ⟨entry.attributes.filter fun field => !isExtra field.1⟩

theorem agreesOn_withoutExtras (h : entry.attributes.lookup "getMessage" = none) :
    AgreesOn frontNames entry entry.withoutExtras := by
  intro name hname
  rw [withoutExtras, Table.lookup_filter fun name => !isExtra name]
  rcases List.mem_cons.mp hname with rfl | hstandard
  · rw [h, ite_self]
  · rw [isExtra_of_mem hstandard, if_pos (by rfl)]

theorem extras_withoutExtras : entry.withoutExtras.extras = [] := by
  simp [extras, withoutExtras]

/-! ### Items in another order -/

/-- An attribute of the same name and with the same value; the items of a collection may be in
another order if it is an extra field. -/
structure ReordersField (field other : String × Datum) : Prop where
  /-- The name is the same. -/
  name : field.1 = other.1
  /-- The value is the same up to the order of items. -/
  value : field.2 = other.2 ∨ isExtra field.1 = true ∧ field.2.Reorders other.2

/-- An entry with the same attributes in the same order, except that items of collections may be
in another order. -/
def Reorders (entry other : Entry) : Prop :=
  List.Forall₂ ReordersField entry.attributes other.attributes

theorem lookup_eq_of_reorders {attributes attributes' : List (String × Datum)}
    (h : List.Forall₂ ReordersField attributes attributes') (hname : isExtra name = false) :
    attributes.lookup name = attributes'.lookup name := by
  induction h with
  | nil => rfl
  | @cons field field' _ _ hfield _ ih =>
    obtain ⟨key, datum⟩ := field
    obtain ⟨key', datum'⟩ := field'
    obtain ⟨rfl : key = key', hvalue⟩ := hfield
    rw [Table.lookup_cons, Table.lookup_cons, ih]
    split
    · next hkey =>
      subst hkey
      rcases hvalue with rfl | ⟨hextra, -⟩
      · rfl
      · exact absurd hextra (Bool.eq_false_iff.mp hname)
    · rfl

namespace Reorders

theorem names_eq (h : entry.Reorders other) : entry.names = other.names := by
  have hnames : List.Forall₂ (· = ·) entry.names other.names := by
    rw [names, names, List.forall₂_map_left_iff, List.forall₂_map_right_iff]
    exact h.imp fun _ _ hfield => hfield.name
  rwa [List.forall₂_eq_eq_eq] at hnames

theorem agreesOn (h : entry.Reorders other)
    (hmute : entry.attributes.lookup "getMessage" = none) :
    AgreesOn frontNames entry other := by
  intro name hname
  rcases List.mem_cons.mp hname with rfl | hstandard
  · have hother : "getMessage" ∉ other.names := by
      rw [← h.names_eq]
      exact Table.lookup_eq_none_iff.mp hmute
    rw [hmute, Table.lookup_eq_none_iff.mpr hother]
  · exact lookup_eq_of_reorders h (isExtra_of_mem hstandard)

theorem trailer_eq (h : entry.Reorders other) : entry.trailer = other.trailer := by
  have hextras : List.Forall₂ ReordersField entry.extras other.extras :=
    List.rel_filter (fun _ _ hfield => by simp only [hfield.name]) h
  have hshown : List.Forall₂ (· = ·) (entry.extras.map fun field => " " ++ fieldText field)
      (other.extras.map fun field => " " ++ fieldText field) := by
    rw [List.forall₂_map_left_iff, List.forall₂_map_right_iff]
    refine hextras.imp fun field field' hfield => ?_
    have hvalue : field.2.shown = field'.2.shown :=
      hfield.value.elim (congrArg Datum.shown) fun h => Datum.shown_eq_of_reorders h.2
    rw [fieldText, hfield.name, hvalue, fieldText]
  rw [List.forall₂_eq_eq_eq] at hshown
  rw [trailer, hshown, trailer]

end Reorders

/-! ### Lines -/

variable {logger level text created thousandths : Datum} {arguments : List Datum}
  {circumstances : Circumstances}
  {extra : List (String × Datum)}

/-- **Lines stay as they are.** An entry that has been made with some attributes and has been
shown by a line is shown by the same line ever after, and does not change any more, whatever is
bound in between. The identifier told is the entry's own, else the one that was bound, else a
hyphen. The line has two parts. The first is the line of the entry without its extra fields: the
headline and what follows on lines of its own. The second shows the extra fields, of which none
has been stored on the way: each attribute whose name is neither standard nor begins with an
underscore once, in the order in which the names were set first. The items of a collection among
them may stand in any order. -/
theorem format_exact
    (hmade : make logger level text arguments created thousandths circumstances extra = .ok entry)
    (hline : entry.format bound = (.ok line, after)) :
    (∀ calls : List Call, after.format (calls.foldl Call.after bound) = (.ok line, after)) ∧
      entry.IsShownWith bound (after.get "correlation_id") ∧
      after.extras = entry.extras ∧ AreFieldsOf entry.extras extra ∧
      (∃ message time stem rest left, entry.message = .ok message ∧
        timeText (entry.get "created") (entry.get "msecs") = .ok time ∧
        stem = after.headline time message ++ rest ∧
        entry.withoutExtras.format bound = (.ok stem, left) ∧
        line = stem ++ String.join (entry.extras.map fun field => " " ++ fieldText field)) ∧
      ∀ other : Entry, entry.Reorders other →
        ∃ after', other.format bound = (.ok line, after') := by
  have hmute := lookup_getMessage hline
  refine ⟨fun calls => format_again hline _, ?_, extras_after hline, ?_, ?_, fun other h => ?_⟩
  · rw [get_after hline]
    exact isShownWith_correlation entry bound
  · obtain ⟨standard, hnodup, hstandard, rfl⟩ := exists_setAll_of_make hmade
    exact areFieldsOf_setAll hstandard hnodup
  · obtain ⟨message, time, stem, left, hmessage, htime, ⟨rest, hstem⟩, hwhole, hbare⟩ :=
      (agreesOn_withoutExtras hmute).exists_format hline
    rw [trailer, extras_withoutExtras, List.map_nil, String.join_nil, String.append_empty] at hbare
    exact ⟨message, time, stem, rest, left, hmessage, htime, hstem, hbare, hwhole⟩
  · obtain ⟨-, -, stem, after', -, -, -, hwhole, hother⟩ := (h.agreesOn hmute).exists_format hline
    exact ⟨after', by rw [hother, ← h.trailer_eq, ← hwhole]⟩

/-- Where and by whom an event was noted. -/
def noted : Circumstances where
  pathname := .text "access/context.py"
  filename := .text "context.py"
  moduleName := .text "context"
  lineno := .integer 64
  funcName := .text "open"
  thread := .integer 1
  threadName := .text "MainThread"
  taskName := some (.text "Task-1")

/-- An entry some of whose standard attributes were set again along with its extra fields, and
one of these twice. -/
def reboundEntry : Entry :=
  ⟨[("name", .text "oort_access.test"), ("msg", .text "opened"), ("args", .tuple []),
    ("levelname", .text "INFO"), ("levelno", .integer 20), ("pathname", .text "access/context.py"),
    ("filename", .text "context.py"), ("module", .text "context"), ("exc_info", .null),
    ("exc_text", .null), ("stack_info", .null), ("lineno", .integer 64),
    ("funcName", .text "open"), ("created", .integer 0), ("msecs", .integer 0),
    ("relativeCreated", .null), ("thread", .integer 1), ("threadName", .text "MainThread"),
    ("processName", .null), ("process", .null), ("taskName", .text "Task-1"),
    ("roles", .set [.text "d", .text "c"]), ("_hidden", .integer 1), ("message", .text "old"),
    ("none", .tuple [])]⟩

/-- A name that is set twice, and standard names among the extra ones. -/
theorem format_exact_rebound :
    let extra : List (String × Datum) := [("roles", .list [.text "b", .text "a"]),
      ("created", .integer 0), ("msecs", .integer 0), ("_hidden", .integer 1),
      ("message", .text "old"), ("none", .tuple []), ("roles", .set [.text "d", .text "c"])]
    let second : Datum := .real (.finite false (2 ^ 52) (-52))
    let line := "1970-01-01T00:00:00.000Z INFO  oort_access.test [cid=first] opened " ++
      "roles=c,d none=[]"
    ∃ entry after,
      make (.text "oort_access.test") (.integer 20) (.text "opened") [] second second noted extra =
        .ok entry ∧
      entry.format (some "first") = (.ok line, after) ∧
      after.format ([Call.clear, .bind (some "second")].foldl Call.after (some "first")) =
        (.ok line, after) := by
  intro extra second line
  have hmade : make (.text "oort_access.test") (.integer 20) (.text "opened") [] second second
    noted extra = .ok reboundEntry := rfl
  have hline : reboundEntry.format (some "first") = (.ok line,
      reboundEntry.stamped (.text "first") "opened" "1970-01-01T00:00:00.000Z") :=
    format_eq_ok.mpr ⟨"opened", "1970-01-01T00:00:00.000Z",
      "1970-01-01T00:00:00.000Z INFO  oort_access.test [cid=first] opened",
      by rfl, by rfl, by rfl, by rfl, by rfl⟩
  exact ⟨_, _, hmade, hline, (format_exact hmade hline).1 [.clear, .bind (some "second")]⟩

end Entry

end Clearance.Log
