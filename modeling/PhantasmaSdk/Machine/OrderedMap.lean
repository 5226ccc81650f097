import Mathlib.Order.Defs.LinearOrder
import Mathlib.Tactic

/-!
# Ordered maps

A map kept as its entries, each key once and by ascending key. What is looked up
after an insertion is told by `get_insert`; a key above all others is inserted at
the end (`insert_eq_append`).
-/

namespace Machine

abbrev OrderedMap (K V : Type) := List (K × V)

namespace OrderedMap

variable {K V : Type} [LinearOrder K]

/-- The value under a key, if there is one. -/
def get (key : K) : OrderedMap K V → Option V
  | [] => none
  | (k, v) :: m => if k = key then some v else get key m

/-- Inserts an entry, in place of the one of its key if there is one. -/
def insert (key : K) (value : V) : OrderedMap K V → OrderedMap K V
  | [] => [(key, value)]
  | (k, v) :: m =>
    if key < k then (key, value) :: (k, v) :: m
    else if key = k then (key, value) :: m
    else (k, v) :: insert key value m

variable {m : OrderedMap K V} {key key' : K} {value : V}

/-- An insertion is seen under its key and nowhere else. -/
theorem get_insert :
    get key' (insert key value m) = if key = key' then some value else get key' m := by
  induction m with
  | nil => rfl
  | cons e m ih =>
    obtain ⟨k, v⟩ := e
    rw [insert]
    split
    next => rw [get]
    next =>
      split
      next h =>
        subst h
        rw [get, get]
        split <;> rfl
      next hne =>
        rw [get, get, ih]
        by_cases hk : k = key'
        · rw [if_pos hk, if_pos hk, if_neg fun h => hne (h.trans hk.symm)]
        · rw [if_neg hk, if_neg hk]

/-- A key above all others goes to the end. -/
theorem insert_eq_append (h : ∀ e ∈ m, e.1 < key) : insert key value m = m ++ [(key, value)] := by
  induction m with
  | nil => rfl
  | cons e m ih =>
    obtain ⟨k, v⟩ := e
    obtain ⟨hk, hm⟩ := List.forall_mem_cons.1 h
    rw [insert, if_neg hk.not_gt, if_neg hk.ne', ih hm, List.cons_append]

end OrderedMap

end Machine
