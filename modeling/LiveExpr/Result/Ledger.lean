import LiveExpr.Result.Basic

/-!
The current result of every node of one live graph, by node number.
-/

namespace LiveExpr

structure Ledger where
  entries : Array Result

namespace Ledger

def empty : Ledger :=
  ⟨#[]⟩

def size (l : Ledger) : Nat :=
  l.entries.size

def get (l : Ledger) (id : Nat) : Result :=
  l.entries.getD id none

def ensureCapacity (l : Ledger) (n : Nat) : Ledger :=
  ⟨l.entries ++ Array.replicate (n - l.entries.size) none⟩

def set (l : Ledger) (id : Nat) (r : Result) : Ledger :=
  ⟨(l.ensureCapacity (id + 1)).entries.setIfInBounds id r⟩

@[simp] theorem size_ensureCapacity (l : Ledger) (n : Nat) :
    (l.ensureCapacity n).size = max l.size n := by
  simp only [ensureCapacity, size, Array.size_append, Array.size_replicate]
  omega

@[simp] theorem get_ensureCapacity (l : Ledger) (n : Nat) (id : Nat) :
    (l.ensureCapacity n).get id = l.get id := by
  by_cases h : id < l.entries.size
  · simp [ensureCapacity, get, Array.getElem?_append, h]
  · simp only [ensureCapacity, get, Array.getD_eq_getD_getElem?, Array.getElem?_append, h,
      if_false, Array.getElem?_replicate]
    split <;> simp [Array.getElem?_eq_none (Nat.le_of_not_lt h)]

theorem size_set (l : Ledger) (id : Nat) (r : Result) :
    (l.set id r).size = max l.size (id + 1) := by
  rw [← size_ensureCapacity]
  simp [set, size]

theorem get_set (l : Ledger) (id j : Nat) (r : Result) :
    (l.set id r).get j = if j = id then r else l.get j := by
  have hid : id < (l.ensureCapacity (id + 1)).size := by
    rw [size_ensureCapacity]
    omega
  unfold size at hid
  rw [← get_ensureCapacity l (id + 1) j]
  unfold set get
  rw [Array.getD_eq_getD_getElem?, Array.getElem?_setIfInBounds]
  by_cases h : j = id
  · subst h; simp [hid]
  · simp [h, Ne.symm h]

end Ledger

end LiveExpr
