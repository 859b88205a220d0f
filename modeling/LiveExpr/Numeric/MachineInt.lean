/-!
Fixed-width two's-complement integers of eight kinds. A mathematical integer that does not fit a
kind is taken modulo two to the kind's width.
-/

namespace LiveExpr

inductive IntKind
  | i8 | i16 | i32 | i64 | u8 | u16 | u32 | u64
deriving DecidableEq

namespace IntKind

def width : IntKind → Nat
  | i8 | u8 => 8
  | i16 | u16 => 16
  | i32 | u32 => 32
  | i64 | u64 => 64

def signed : IntKind → Bool
  | i8 | i16 | i32 | i64 => true
  | u8 | u16 | u32 | u64 => false

def name : IntKind → String
  | i8 => "i8"
  | i16 => "i16"
  | i32 => "i32"
  | i64 => "i64"
  | u8 => "u8"
  | u16 => "u16"
  | u32 => "u32"
  | u64 => "u64"

end IntKind

/-- An integer of one kind, held as the bits of its two's-complement form. -/
structure MachineInt where
  kind : IntKind
  bits : BitVec kind.width
deriving DecidableEq

namespace MachineInt

def ofInt (k : IntKind) (n : Int) : MachineInt :=
  ⟨k, BitVec.ofInt k.width n⟩

def toInt (x : MachineInt) : Int :=
  if x.kind.signed then x.bits.toInt else x.bits.toNat

@[simp] theorem kind_ofInt (k : IntKind) (n : Int) : (ofInt k n).kind = k := rfl

@[simp] theorem ofInt_toInt (x : MachineInt) : ofInt x.kind x.toInt = x := by
  unfold ofInt toInt
  split <;> simp

end MachineInt

end LiveExpr
