import Clearance.Response
import Mathlib.Data.List.Basic

/-!
# Where requests lead

A request for an address that is taken only with other slashes at its end is sent there. It gets
an answer there, and is not sent on again (`Clearance.Request.refusal?_of_slashes`). The address of
a request that fails is noted in the log, so it must not break the line: whatever stood in it,
what is noted has no line breaks and ends where the address does
(`Clearance.Request.isShown_shownPath`). What cannot be read in a stored rule is noted as well, and
the client is told nothing of it (`Clearance.RequestFailure.settle_corrupt`).
-/

namespace Clearance

namespace Request

variable {request : Request}

/-- The request **for the address** with other slashes at its end. -/
def redirected (request : Request) : Request :=
  { request with path := String.ofList (otherSlashes request.path.toList) }

/-- **Who is sent elsewhere is not sent on.** Only the method may be refused there. -/
theorem refusal?_of_slashes (h : request.refusal? = some .slashes) :
    request.redirected.refusal? = none ∨ request.redirected.refusal? = some .method := by
  have haddress : isAddress (otherSlashes request.path.toList) = true := by
    rw [refusal?] at h
    split at h
    · split at h
      · next haddress => exact haddress
      · cases h
    · split at h <;> cases h
  rw [refusal?, redirected, String.toList_ofList]
  dsimp only
  rw [haddress]
  split
  · next hfalse => cases hfalse
  · split
    · exact .inr rfl
    · exact .inl rfl

/-- Characters that would break the line of an address, or end it. -/
def isBreaking (c : Char) : Bool :=
  ['\t', '\n', '\r', '\\', '?', '#'].contains c

/-- **The address that is noted** has no character that would break it. -/
theorem isShown_shownPath : ∀ c ∈ request.shownPath.toList, isBreaking c = false := by
  intro c hc
  rw [shownPath, String.toList_ofList] at hc
  obtain ⟨d, -, hc⟩ := List.mem_flatMap.mp hc
  rw [shownChar] at hc
  have hescapes : ∀ text ∈ ["%5C", "%3F", "%23"], ∀ c ∈ text.toList, isBreaking c = false := by
    simp [isBreaking]
  split at hc
  · exact absurd hc List.not_mem_nil
  split at hc
  · exact hescapes "%5C" (by simp) c hc
  split at hc
  · exact hescapes "%3F" (by simp) c hc
  split at hc
  · exact hescapes "%23" (by simp) c hc
  · obtain rfl := List.mem_singleton.mp hc
    simp_all [isBreaking]

end Request

namespace RequestFailure

/-- **What cannot be read** in a stored rule is not told. -/
theorem settle_corrupt (request : Request) (message other : String)
    (place elsewhere : Option String) :
    (settle request (.corrupt message place)).1 =
      (settle request (.corrupt other elsewhere)).1 := by
  rw [settle, settle]
  cases request.refusal? <;> rfl

end RequestFailure

end Clearance
