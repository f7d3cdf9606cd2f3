import Hwi.Lib.Dict
import Mathlib.Data.List.Induction

/-! The last write to a key in a list of writes, and dictionaries that are
updated by one. -/

namespace Hwi

variable {κ ν : Type} [DecidableEq κ]

/-- What the last write to `k` wrote. -/
def lastWrite (writes : List (κ × ν)) (k : κ) : Option ν := writes.reverse.lookup k

@[simp] theorem lastWrite_nil (k : κ) : lastWrite ([] : List (κ × ν)) k = none := rfl

theorem lastWrite_concat (writes : List (κ × ν)) (w : κ × ν) (k : κ) :
    lastWrite (writes ++ [w]) k = if k = w.1 then some w.2 else lastWrite writes k := by
  obtain ⟨k', v⟩ := w
  simp only [lastWrite, List.reverse_append, List.reverse_singleton, List.singleton_append,
    List.lookup_cons]
  by_cases h : k = k'
  · simp [h]
  · have hb : (k == k') = false := by simpa using h
    simp [h, hb]

namespace Dict

/-- `d.update(d')` -/
def update (d d' : Dict κ ν) : Dict κ ν := d'.items.foldl (fun d e => d.set e.1 e.2) d

theorem get?_foldl_set (l : List (κ × ν)) (d : Dict κ ν) (k : κ) :
    (l.foldl (fun d e => d.set e.1 e.2) d).get? k = (lastWrite l k).or (d.get? k) := by
  induction l using List.reverseRecOn with
  | nil => simp
  | append_singleton l e ih =>
    rw [List.foldl_append, List.foldl_cons, List.foldl_nil, get?_set, ih, lastWrite_concat]
    split_ifs <;> rfl

/-- A dictionary holds what was written last to its keys, each written once. -/
theorem lastWrite_items (d : Dict κ ν) (k : κ) : lastWrite d.items k = d.get? k := by
  have hnodup : (d.items.reverse.map Prod.fst).Nodup := by
    rw [List.map_reverse, List.nodup_reverse]
    exact d.nodup
  ext v
  rw [lastWrite, lookup_eq_some_iff hnodup, List.mem_reverse, get?_eq_some_iff]

@[simp] theorem get?_update (d d' : Dict κ ν) (k : κ) :
    (d.update d').get? k = (d'.get? k).or (d.get? k) := by
  rw [update, get?_foldl_set, lastWrite_items]

end Dict

end Hwi
