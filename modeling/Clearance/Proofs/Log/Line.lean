import Clearance.Proofs.Log.Attributes

/-!
# How a line comes about

An entry is changed while it is shown. The correlation identifier, the message, the time and the
text about a failure are found one after the other, each is stored in the entry, and in the end
the line is put together from what the entry holds then. This file takes that apart
(`Clearance.Log.Entry.format_eq_ok`).

* What is read has not been stored shortly before, so the message and the time are those of the
  entry as it was. Which attributes something depends on is told by entries that agree on them
  (`Clearance.Log.Entry.AgreesOn`).
* The identifier is told by three cases (`Clearance.Log.Entry.IsShownWith`), and is empty in none
  of them.
* The line is the headline with the texts that follow on lines of their own, and behind them each
  extra field after a blank (`Clearance.Log.Entry.fullLine_eq`).
-/

namespace Clearance.Log

namespace Entry

variable {entry other after : Entry} {bound : Option String} {datum : Datum} {names : List String}
  {name line headline message time : String}

/-! ### What is told first -/

/-- Entries **agree on** some names if each has the attributes of the other under them. -/
def AgreesOn (names : List String) (entry other : Entry) : Prop :=
  ∀ name ∈ names, entry.attributes.lookup name = other.attributes.lookup name

namespace AgreesOn

theorem get_eq (h : AgreesOn names entry other) (hname : name ∈ names) :
    entry.get name = other.get name := by
  rw [get, h name hname, get]

theorem set (h : AgreesOn names entry other) :
    AgreesOn names (entry.set name datum) (other.set name datum) := by
  intro asked hasked
  rw [lookup_set, lookup_set, h asked hasked]

theorem set_left (h : AgreesOn names entry other) (hname : name ∉ names) :
    AgreesOn names (entry.set name datum) other := by
  intro asked hasked
  rw [lookup_set_of_ne (ne_of_mem_of_not_mem hasked hname), h asked hasked]

/-- The message depends on three attributes. -/
theorem message_eq (h : AgreesOn names entry other)
    (hread : ["msg", "args", "getMessage"] ⊆ names) : entry.message = other.message := by
  have hmute : entry.isMute = other.isMute := by
    rw [isMute, h "getMessage" (hread (by simp)), isMute]
  rw [Entry.message, h.get_eq (hread (by simp)), h.get_eq (hread (by simp)), hmute, Entry.message]

end AgreesOn

/-- A further text is put behind a line. -/
theorem below_eq_ok {more : Datum} {whole : String} (h : below line more = .ok whole) :
    ∃ rest, whole = line ++ rest := by
  unfold below at h
  split at h
  · exact ⟨"", by rw [String.append_empty, Except.ok.inj h]⟩
  · cases more with
    | text _ | action _ =>
      obtain rfl := Except.ok.inj h
      split
      · exact ⟨_, rfl⟩
      · exact ⟨_, String.append_assoc⟩
    | _ => cases h

/-- The line in front of the extra fields: the headline with the texts that follow on lines of
their own. -/
def stem (entry : Entry) (headline : String) : Except Template.Error String :=
  (below headline (entry.get "exc_text")).bind fun line => below line (entry.get "stack_info")

theorem exists_stem {whole : String} (h : entry.stem headline = .ok whole) :
    ∃ rest, whole = headline ++ rest := by
  obtain ⟨line, hline, h⟩ := Outcome.bind_eq_ok.mp h
  obtain ⟨first, rfl⟩ := below_eq_ok hline
  obtain ⟨second, rfl⟩ := below_eq_ok h
  exact ⟨first ++ second, String.append_assoc⟩

/-- The extra fields as they stand at the end of a line, each behind a blank. -/
def trailer (entry : Entry) : String :=
  String.join (entry.extras.map fun field => " " ++ fieldText field)

theorem blank_append_intercalate (text : String) (texts : List String) :
    " " ++ " ".intercalate (text :: texts) = String.join ((text :: texts).map (" " ++ ·)) := by
  induction texts generalizing text with
  | nil => simp
  | cons next rest ih =>
    rw [String.intercalate_cons_cons, List.map_cons, String.join_cons, ← ih]
    simp only [String.append_assoc]

theorem fullLine_eq :
    entry.fullLine headline = (entry.stem headline).map (· ++ entry.trailer) := by
  have hfields : ∀ line : String, (if (entry.extras.map fieldText).isEmpty then line
      else line ++ " " ++ " ".intercalate (entry.extras.map fieldText)) =
        line ++ entry.trailer := by
    intro line
    rw [trailer, show (fun field => " " ++ fieldText field) = (" " ++ ·) ∘ fieldText from rfl,
      ← List.map_map]
    cases entry.extras.map fieldText with
    | nil => simp
    | cons first rest =>
      rw [if_neg (by simp), String.append_assoc, blank_append_intercalate]
  rw [fullLine, stem]
  simp only [hfields]
  cases below headline (entry.get "exc_text") with
  | error error => rfl
  | ok line => cases below line (entry.get "stack_info") <;> rfl

/-! ### What is stored -/

/-- The identifier that an entry **is shown with**. -/
inductive IsShownWith (entry : Entry) : (bound : Option String) → (id : Datum) → Prop
  /-- It is the entry's own, if that is not empty; -/
  | own (bound : Option String) (h : (entry.get "correlation_id").isEmpty = false) :
    entry.IsShownWith bound (entry.get "correlation_id")
  /-- else the one that is bound, if that is not empty; -/
  | bound (id : String) (h : (entry.get "correlation_id").isEmpty = true) (hid : id ≠ "") :
    entry.IsShownWith (some id) (.text id)
  /-- else a hyphen. -/
  | none (bound : Option String) (h : (entry.get "correlation_id").isEmpty = true)
    (hbound : bound = none ∨ bound = some "") : entry.IsShownWith bound (.text "-")

theorem correlation_of_own (h : (entry.get "correlation_id").isEmpty = false) :
    entry.correlation bound = entry.get "correlation_id" := by
  simp only [correlation, h]
  rfl

theorem isShownWith_correlation (entry : Entry) (bound : Option String) :
    entry.IsShownWith bound (entry.correlation bound) := by
  cases hown : (entry.get "correlation_id").isEmpty with
  | false =>
    rw [correlation_of_own hown]
    exact .own bound hown
  | true =>
    cases bound with
    | none =>
      simp only [correlation, hown]
      exact .none _ hown (.inl rfl)
    | some id =>
      by_cases hid : id = ""
      · subst hid
        simp only [correlation, hown]
        exact .none _ hown (.inr rfl)
      · have hfull : id.isEmpty = false := by simpa using hid
        simp only [correlation, hown, hfull]
        exact .bound id hown hid

/-- No entry is shown with an empty identifier. -/
theorem IsShownWith.isEmpty_eq_false {id : Datum} (h : entry.IsShownWith bound id) :
    id.isEmpty = false := by
  cases h with
  | own _ h => exact h
  | bound _ _ hid => simpa [Datum.isEmpty] using hid
  | none => decide

theorem withFailureText_eq_ok (h : entry.withFailureText = .ok after) :
    after = entry ∨ ∃ text, after = entry.set "exc_text" (.text text) := by
  rw [withFailureText] at h
  split at h
  · exact .inl (Except.ok.inj h).symm
  · obtain ⟨text, -, rfl⟩ := Outcome.map_eq_ok.mp h
    exact .inr ⟨text, rfl⟩

/-- The text about a failure is found once. -/
theorem withFailureText_again (h : entry.withFailureText = .ok after) :
    after.withFailureText = .ok after := by
  have hfound := h
  rw [withFailureText] at hfound
  split at hfound
  · obtain rfl := Except.ok.inj hfound
    exact h
  · next hneeded =>
    obtain ⟨text, htext, rfl⟩ := Outcome.map_eq_ok.mp hfound
    have hfailure : (entry.set "exc_text" (.text text)).get "exc_info" = entry.get "exc_info" := by
      rw [get, lookup_set_of_ne (by decide), get]
    rw [withFailureText, hfailure]
    split
    · rfl
    · -- an empty text is looked for again, and is the same
      rw [htext, Except.map, set_eq_self lookup_set_self]

/-- An entry with the identifier, the message and the time that have been found for it. -/
def stamped (entry : Entry) (id : Datum) (message time : String) : Entry :=
  ((entry.set "correlation_id" id).set "message" (.text message)).set "asctime" (.text time)

/-- **How a line comes about.** -/
theorem format_eq_ok : entry.format bound = (.ok line, after) ↔
    ∃ message time stem, entry.message = .ok message ∧
      timeText (entry.get "created") (entry.get "msecs") = .ok time ∧
      (entry.stamped (entry.correlation bound) message time).withFailureText = .ok after ∧
      after.stem (after.headline time message) = .ok stem ∧ line = stem ++ after.trailer := by
  -- what is read has not been changed by what has been stored before
  have hfixed : AgreesOn ["msg", "args", "getMessage", "created", "msecs"]
      (entry.set "correlation_id" (entry.correlation bound)) entry :=
    AgreesOn.set_left (fun _ _ => rfl) (by decide)
  rw [format, lineOf, hfixed.message_eq (by simp)]
  cases entry.message with
  | error error => simp
  | ok message =>
    have htold : AgreesOn ["msg", "args", "getMessage", "created", "msecs"]
        ((entry.set "correlation_id" (entry.correlation bound)).set "message" (.text message))
        entry := hfixed.set_left (by decide)
    simp only [htold.get_eq (show "created" ∈ _ by simp), htold.get_eq (show "msecs" ∈ _ by simp)]
    cases timeText (entry.get "created") (entry.get "msecs") with
    | error error => simp
    | ok time =>
      have hstamped : ((entry.set "correlation_id" (entry.correlation bound)).set "message"
          (.text message)).set "asctime" (.text time) =
            entry.stamped (entry.correlation bound) message time := rfl
      simp only [hstamped, Except.ok.injEq, exists_and_left, exists_eq_left']
      cases (entry.stamped (entry.correlation bound) message time).withFailureText with
      | error error => simp
      | ok whole =>
        simp only [fullLine_eq, Prod.mk.injEq, Outcome.map_eq_ok, Except.ok.injEq]
        constructor
        · rintro ⟨⟨stem, hstem, rfl⟩, rfl⟩
          exact ⟨rfl, stem, hstem, rfl⟩
        · rintro ⟨rfl, stem, hstem, rfl⟩
          exact ⟨⟨stem, hstem, rfl⟩, rfl⟩

end Entry

end Clearance.Log
