import TypedRecords.DataType.Basic
import TypedRecords.Error
import TypedRecords.Text.Lowercase
/-!
# Schemas

A schema is a list of fields in which no struct, at any depth, has two fields of one name. Names are
compared as they are or in lower case.
-/

namespace TypedRecords

mutual

/-- The first name of a struct that repeats, up to `key`, the name of an earlier field of it. -/
def DataType.repeatedName? (key : String → String) : DataType → Option String
  | .struct fs => repeatedAmong? key [] fs
  | .array e _ => e.repeatedName? key
  | .map v _ => v.repeatedName? key
  | .alias _ t => t.repeatedName? key
  | _ => none

/-- `seen` holds the keys of the fields already passed. -/
def repeatedAmong? (key : String → String) (seen : List String) : List Field → Option String
  | [] => none
  | ⟨name, t, _⟩ :: fs =>
    if key name ∈ seen then some name
    else match t.repeatedName? key with
      | some n => some n
      | none => repeatedAmong? key (key name :: seen) fs

end

mutual

theorem DataType.repeated_name_id {key : String → String} : (t : DataType) →
    t.repeatedName? key = none → t.repeatedName? id = none
  | .struct fs, h => repeated_among_id fs (by simp) (by simpa [DataType.repeatedName?] using h)
  | .array e _, h => by
    simpa [DataType.repeatedName?] using
      DataType.repeated_name_id e (by simpa [DataType.repeatedName?] using h)
  | .map v _, h => by
    simpa [DataType.repeatedName?] using
      DataType.repeated_name_id v (by simpa [DataType.repeatedName?] using h)
  | .alias _ t, h => by
    simpa [DataType.repeatedName?] using
      DataType.repeated_name_id t (by simpa [DataType.repeatedName?] using h)
  | .null, _ | .string, _ | .boolean, _ | .byte, _ | .short, _ | .integer, _ | .long, _
  | .float, _ | .double, _ | .decimal _ _, _ | .date, _ | .timestamp, _ | .binary, _ => by
    simp [DataType.repeatedName?]

/-- Names that differ under some key differ. -/
theorem repeated_among_id {key : String → String} {seen seen' : List String} :
    (fs : List Field) → (∀ s ∈ seen', key s ∈ seen) → repeatedAmong? key seen fs = none →
      repeatedAmong? id seen' fs = none
  | [], _, _ => by simp [repeatedAmong?]
  | ⟨name, t, _⟩ :: fs, hs, h => by
    rw [repeatedAmong?] at h ⊢
    split at h
    · simp at h
    · next hn =>
      have hn' : ¬ id name ∈ seen' := fun hm => hn (hs _ hm)
      rw [if_neg hn']
      split at h
      · simp at h
      · next ht =>
        rw [DataType.repeated_name_id t ht]
        exact repeated_among_id fs (by
          intro s hm
          rcases List.mem_cons.1 hm with rfl | hm
          · simp
          · exact List.mem_cons_of_mem _ (hs s hm)) h

end

structure Schema where
  fields : List Field
  distinct : repeatedAmong? id [] fields = none
  deriving DecidableEq, Repr

namespace Schema

def nameKey (caseSensitive : Bool) : String → String :=
  if caseSensitive then id else Text.lowercase

def ofFields (fields : List Field) (caseSensitive : Bool) : Except Error Schema :=
  match h : repeatedAmong? (nameKey caseSensitive) [] fields with
  | some name => .error (.duplicateField name)
  | none => .ok ⟨fields, repeated_among_id fields (by simp) h⟩

def empty : Schema := ⟨[], rfl⟩

instance : Inhabited Schema := ⟨empty⟩

def ofType (t : DataType) (caseSensitive : Bool) : Except Error Schema :=
  match t with
  | .struct fs => ofFields fs caseSensitive
  | _ => .ok empty

def size (s : Schema) : Nat := s.fields.length

def isEmpty (s : Schema) : Bool := s.fields.isEmpty

def indexOf? (s : Schema) (name : String) : Option Nat := s.fields.findIdx? (·.name == name)

def field? (s : Schema) (name : String) : Option Field := s.fields.find? (·.name == name)

def toType (s : Schema) : DataType := .struct s.fields

def text (s : Schema) : String := s.toType.text

end Schema

end TypedRecords
