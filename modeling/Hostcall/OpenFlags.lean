/-!
# Open flags

The 32-bit flag word of an open call. The two low bits are the access mode, which is a number and
not a set: read only is 0, write only 1, both 2, and 3 is no access at all.
-/

namespace Hostcall

/-- The flag word of an open call. -/
structure OpenFlags where
  word : BitVec 32
deriving DecidableEq, Repr

namespace OpenFlags

/-- The word of a signed number. -/
def ofInt (n : Int) : OpenFlags := ⟨BitVec.ofInt 32 n⟩

/-- The word as a signed number. -/
def toInt (f : OpenFlags) : Int := f.word.toInt

/-- The access mode that allows reading alone; no bit is set. -/
def readOnly : OpenFlags := ⟨0x0⟩

/-- The access mode that allows writing alone. -/
def writeOnly : OpenFlags := ⟨0x1⟩

/-- The access mode that allows both. -/
def readWrite : OpenFlags := ⟨0x2⟩

/-- Every write goes to the end. -/
def append : OpenFlags := ⟨0x8⟩

/-- A missing file is created. -/
def create : OpenFlags := ⟨0x200⟩

/-- A file that is there is emptied. -/
def truncate : OpenFlags := ⟨0x400⟩

/-- Together with `create`: a file that is there is an error. -/
def exclusive : OpenFlags := ⟨0x800⟩

/-- Operations do not wait. -/
def nonBlocking : OpenFlags := ⟨0x4000⟩

/-- The descriptor is closed when another program takes over. -/
def closeOnExec : OpenFlags := ⟨0x40000⟩

/-- The bits that hold the access mode; all of them set is no valid mode. -/
def accessMask : BitVec 32 := 0x3

/-- Both words' flags. -/
def union (f g : OpenFlags) : OpenFlags := ⟨f.word ||| g.word⟩

instance : OrOp OpenFlags := ⟨union⟩

/-- The access mode alone. -/
def access (f : OpenFlags) : OpenFlags := ⟨f.word &&& accessMask⟩

/-- Whether all bits of `g` are set in `f`. -/
def contains (f g : OpenFlags) : Bool := f.word &&& g.word == g.word

/-- Whether the access mode allows reading. -/
def reads (f : OpenFlags) : Bool := f.access == readOnly || f.access == readWrite

/-- Whether the access mode allows writing. -/
def writes (f : OpenFlags) : Bool := f.access == writeOnly || f.access == readWrite

/-- Whether a missing file is to be created. -/
def creates (f : OpenFlags) : Bool := f.contains create

/-- Whether a file that is there is to be emptied. -/
def truncates (f : OpenFlags) : Bool := f.contains truncate

/-- Whether a file that is there is in the way of creating one. -/
def excludes (f : OpenFlags) : Bool := f.contains exclusive

/-- Whether every write goes to the end. -/
def appends (f : OpenFlags) : Bool := f.contains append

@[simp] theorem contains_self (f : OpenFlags) : f.contains f = true := by
  simp [contains]

/-- A word that neither reads nor writes has the access mode 3, and the other way round. -/
theorem access_eq_mask_iff (f : OpenFlags) :
    f.access = ⟨accessMask⟩ ↔ f.reads = false ∧ f.writes = false := by
  have key : ∀ x : BitVec 32, x &&& 3#32 = 0#32 ∨ x &&& 3#32 = 1#32 ∨ x &&& 3#32 = 2#32 ∨
      x &&& 3#32 = 3#32 := by
    intro x
    have h : (x &&& 3#32).toNat = x.toNat % 4 := by
      rw [BitVec.toNat_and]
      exact Nat.and_two_pow_sub_one_eq_mod x.toNat 2
    have : x.toNat % 4 < 4 := Nat.mod_lt _ (by decide)
    have split : x.toNat % 4 = 0 ∨ x.toNat % 4 = 1 ∨ x.toNat % 4 = 2 ∨ x.toNat % 4 = 3 := by omega
    rcases split with e | e | e | e
    · exact .inl (BitVec.eq_of_toNat_eq (by simp [h, e]))
    · exact .inr (.inl (BitVec.eq_of_toNat_eq (by simp [h, e])))
    · exact .inr (.inr (.inl (BitVec.eq_of_toNat_eq (by simp [h, e]))))
    · exact .inr (.inr (.inr (BitVec.eq_of_toNat_eq (by simp [h, e]))))
  rcases key f.word with h | h | h | h <;>
    simp [access, reads, writes, accessMask, readOnly, writeOnly, readWrite, h]

end OpenFlags

end Hostcall
