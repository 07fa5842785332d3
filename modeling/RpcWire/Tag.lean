namespace RpcWire

/-! # Tags

A tag picks one arm of a union. On the wire it is a word: the position of the
arm in a fixed order, counted from zero. Each set of tags lists its members in
that order once, and the number of a tag, its reading and its name follow. -/

class Tag (Kind : Type) where
  all : List Kind
  name : Kind → String
  complete : ∀ kind, kind ∈ all
  nodup : all.Nodup := by decide
  short : all.length < UInt32.size := by decide

namespace Tag

variable {Kind : Type} [Tag Kind]

/-- The tag of a number, or nothing for a number past the last tag. -/
def ofWord? (word : UInt32) : Option Kind := (all : List Kind)[word.toNat]?

def toWord [DecidableEq Kind] (kind : Kind) : UInt32 :=
  UInt32.ofNat ((all : List Kind).idxOf kind)

/-- The name that belongs to a number, or `unknown` for a number without a tag. -/
def nameOf (Kind : Type) [Tag Kind] (unknown : String) (word : UInt32) : String :=
  match (ofWord? word : Option Kind) with
  | some kind => name kind
  | none => unknown

/-! ## Numbers and tags correspond -/

theorem toNat_toWord [DecidableEq Kind] (kind : Kind) :
    (toWord kind).toNat = (all : List Kind).idxOf kind := by
  have inside := List.idxOf_lt_length_of_mem (complete kind)
  have small : (all : List Kind).length < 4294967296 := short
  simp only [toWord, UInt32.toNat_ofNat']
  omega

theorem ofWord?_eq_some_iff [DecidableEq Kind] {word : UInt32} {kind : Kind} :
    ofWord? word = some kind ↔ word = toWord kind := by
  rw [← UInt32.toNat_inj, toNat_toWord, ofWord?]
  constructor
  · intro found
    obtain ⟨inside, rfl⟩ := List.getElem?_eq_some_iff.mp found
    exact ((@nodup Kind _).idxOf_getElem _ inside).symm
  · intro equal
    have inside := List.idxOf_lt_length_of_mem (complete kind)
    rw [equal, List.getElem?_eq_getElem inside, List.getElem_idxOf]

@[simp] theorem ofWord?_toWord [DecidableEq Kind] (kind : Kind) :
    ofWord? (toWord kind) = some kind :=
  ofWord?_eq_some_iff.mpr rfl

theorem toWord_injective [DecidableEq Kind] {left right : Kind}
    (equal : toWord left = toWord right) : left = right := by
  have := ofWord?_toWord left
  rw [equal, ofWord?_toWord] at this
  exact (Option.some.inj this).symm

theorem ofWord?_eq_none_iff {word : UInt32} :
    (ofWord? word : Option Kind) = none ↔ (all : List Kind).length ≤ word.toNat := by
  simp [ofWord?]

end Tag

end RpcWire
