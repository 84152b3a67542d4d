/-! Numbered slots, each holding the default until it is written. Reading is total, so
`get_put` needs no bound. -/
namespace Phrasebook

structure Slots (α : Type) where
  used : List α := []
deriving Repr

namespace Slots

variable {α : Type} [Inhabited α]

instance : Inhabited (Slots α) := ⟨⟨[]⟩⟩

def get (slots : Slots α) (i : Nat) : α := slots.used[i]?.getD default

def place : Nat → α → List α → List α
  | 0, a, [] => [a]
  | 0, a, _ :: rest => a :: rest
  | n + 1, a, [] => default :: place n a []
  | n + 1, a, x :: rest => x :: place n a rest

def put (slots : Slots α) (i : Nat) (a : α) : Slots α := ⟨place i a slots.used⟩

def modify (slots : Slots α) (i : Nat) (f : α → α) : Slots α := slots.put i (f (slots.get i))

def size (slots : Slots α) : Nat := slots.used.length

theorem getD_place (i j : Nat) (a : α) (used : List α) :
    (place i a used)[j]?.getD default = if i = j then a else used[j]?.getD default := by
  induction i generalizing j used with
  | zero => cases used <;> cases j <;> simp [place]
  | succ i ih => cases used <;> cases j <;> simp [place,ih]

theorem get_put (slots : Slots α) (i j : Nat) (a : α) :
    (slots.put i a).get j = if i = j then a else slots.get j := getD_place i j a slots.used

theorem get_modify (slots : Slots α) (i j : Nat) (f : α → α) :
    (slots.modify i f).get j = if i = j then f (slots.get j) else slots.get j := by
  rw [modify,get_put]
  split
  · subst i; rfl
  · rfl

theorem get_of_size_le (slots : Slots α) {i : Nat} (h : slots.size ≤ i) : slots.get i = default := by
  rw [get,List.getElem?_eq_none h]
  rfl

@[simp] theorem get_put_same (slots : Slots α) (i : Nat) (a : α) : (slots.put i a).get i = a := by
  simp [get_put]

@[simp] theorem get_put_other (slots : Slots α) {i j : Nat} (a : α) (h : i ≠ j) :
    (slots.put i a).get j = slots.get j := by simp [get_put,h]

@[simp] theorem get_modify_same (slots : Slots α) (i : Nat) (f : α → α) :
    (slots.modify i f).get i = f (slots.get i) := by simp [modify]

@[simp] theorem get_modify_other (slots : Slots α) {i j : Nat} (f : α → α) (h : i ≠ j) :
    (slots.modify i f).get j = slots.get j := by simp [modify,h]

end Slots
end Phrasebook
