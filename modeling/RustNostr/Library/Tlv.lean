import Mathlib
import RustNostr.Library.ByteString

/-!
# Type-length-value entries

A byte string made of entries, each with a byte for its type and a byte for the
length of its value. A reader visits the entries one after another.
-/

set_option autoImplicit false

namespace RustNostr.Library.Tlv

def entry (type : UInt8) (value : Bytes) : Bytes := type :: UInt8.ofNat value.length :: value

section Fold

variable {State Error : Type} (malformed : Error)
  (visit : State → UInt8 → Bytes → Except Error State)

def fold (state : State) (data : Bytes) : Except Error State :=
  match data with
  | [] => .ok state
  | [_] => .error malformed
  | type :: length :: rest =>
      if rest.length < length.toNat then .error malformed
      else
        match visit state type (rest.take length.toNat) with
        | .error error => .error error
        | .ok next => fold next (rest.drop length.toNat)
termination_by data.length
decreasing_by
  simp only [List.length_drop, List.length_cons]
  omega

theorem fold_nil (state : State) : fold malformed visit state [] = .ok state := by rw [fold]

variable {malformed visit}

/-- An entry is visited with its own value, and the reader goes on behind it. -/
theorem fold_entry_append {type : UInt8} {value : Bytes} (fits : value.length < 256) (state : State)
    (rest : Bytes) : fold malformed visit state (entry type value ++ rest) = (do
      let next ← visit state type value
      fold malformed visit next rest) := by
  have length : (UInt8.ofNat value.length).toNat = value.length := UInt8.toNat_ofNat_of_lt' fits
  have whole : ¬ (value ++ rest).length < value.length := by
    rw [List.length_append]
    omega
  rw [entry, List.cons_append, List.cons_append, fold, length, if_neg whole, List.take_left,
    List.drop_left]
  cases visit state type value <;> rfl

/-- Entries are visited in their order. -/
theorem fold_entries {entries : List (UInt8 × Bytes)} (fits : ∀ item ∈ entries, item.2.length < 256)
    (state : State) :
    fold malformed visit state (entries.flatMap fun item => entry item.1 item.2) =
      entries.foldlM (fun state item => visit state item.1 item.2) state := by
  induction entries generalizing state with
  | nil => exact fold_nil malformed visit state
  | cons item entries ih =>
      rw [List.flatMap_cons, List.foldlM_cons, fold_entry_append (fits item List.mem_cons_self)]
      congr 1
      funext next
      exact ih (fun other member => fits other (List.mem_cons_of_mem item member)) next

end Fold

end RustNostr.Library.Tlv
