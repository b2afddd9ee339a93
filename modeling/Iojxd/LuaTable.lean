import Iojxd.LuaValue
import Mathlib.Data.List.AList

/-!
# Lua tables

A table maps keys to values; a key without entry reads as nil and assigning nil
removes the entry.  Tables are used through a store that gives each reference
its table.  The order in which `pairs` visits a table is that of the entries;
filling in missing fields does not depend on it.
-/

namespace Iojxd

abbrev LuaTable := AList fun _ : LuaValue => LuaValue

namespace LuaTable

/-- `t[k]`. -/
def get (t : LuaTable) (k : LuaValue) : LuaValue :=
  (t.lookup k).getD .nil

/-- `t[k] = v`. -/
def set (t : LuaTable) (k v : LuaValue) : LuaTable :=
  if v = .nil then t.erase k else t.insert k v

/-- The constructor `{ [k] = v, ... }`. -/
def ofEntries (entries : List (LuaValue × LuaValue)) : LuaTable :=
  entries.foldl (fun t e => set t e.1 e.2) ∅

/-- The constructor `{ v, ... }`. -/
def array (values : List LuaValue) : LuaTable :=
  ofEntries (values.zipIdx.map fun e => (.number (e.2 + 1 : ℕ), e.1))

/-- `for i, v in pairs(defaults) do if src[i] == nil then src[i] = v end end`. -/
def fillMissing (src defaults : LuaTable) : LuaTable :=
  defaults.entries.foldl
    (fun src e => if src.get e.1 = .nil then src.set e.1 e.2 else src) src

/-- What `ipairs` visits at position `n`: the entry there, if none before it is
missing. -/
def ipairs (t : LuaTable) (n : Nat) : LuaValue :=
  if ∀ i < n, t.get (.number (i + 1 : ℕ)) ≠ .nil then
    t.get (.number (n + 1 : ℕ))
  else .nil

@[simp] theorem get_empty (k : LuaValue) :
    get ∅ k = .nil := by
  simp [get]

@[simp] theorem get_set_self (t : LuaTable) (k v : LuaValue) :
    get (set t k v) k = v := by
  unfold get set
  by_cases hv : v = .nil
  · simp [hv]
  · simp [hv]

theorem get_set_ne (t : LuaTable) {k k' : LuaValue} (v : LuaValue)
    (h : k' ≠ k) :
    get (set t k v) k' = get t k' := by
  unfold get set
  by_cases hv : v = .nil
  · simp [hv, AList.lookup_erase_ne h]
  · simp [hv, AList.lookup_insert_ne h]

/-- `ipairs` sees only the entries at numbers. -/
theorem ipairs_congr
    {t t' : LuaTable}
    (h : ∀ n : ℕ, t'.get (.number n) = t.get (.number n)) :
    t'.ipairs = t.ipairs := by
  funext n
  simp only [ipairs, h]

/-- A value read from a constructed table was given to the constructor. -/
theorem mem_of_get_ofEntries
    {entries : List (LuaValue × LuaValue)} {k v : LuaValue}
    (h : get (ofEntries entries) k = v) (hv : v ≠ .nil) :
    (k, v) ∈ entries := by
  have hfold : ∀ (es : List (LuaValue × LuaValue)) (t : LuaTable),
      get (es.foldl (fun t e => set t e.1 e.2) t) k = v →
        get t k = v ∨ (k, v) ∈ es := by
    intro es
    induction es with
    | nil => exact fun _ h => Or.inl h
    | cons e es ih =>
        intro t h
        rcases ih (set t e.1 e.2) h with h | h
        · by_cases hk : k = e.1
          · rw [← hk, get_set_self] at h
            exact Or.inr (by simp [hk, ← h])
          · rw [get_set_ne t e.2 hk] at h
            exact Or.inl h
        · exact Or.inr (List.mem_cons_of_mem _ h)
  rcases hfold entries ∅ h with h | h
  · rw [get_empty] at h
    exact absurd h.symm hv
  · exact h

/-- **Filling in defaults** changes exactly the missing fields. -/
theorem get_fillMissing (src defaults : LuaTable) (k : LuaValue) :
    (src.fillMissing defaults).get k =
      if src.get k = .nil then defaults.get k else src.get k := by
  have hfold : ∀ (es : List (Sigma fun _ : LuaValue => LuaValue))
      (src : LuaTable), es.NodupKeys →
      get (es.foldl (fun src e =>
          if src.get e.1 = .nil then src.set e.1 e.2 else src) src) k =
        if src.get k = .nil then (es.dlookup k).getD .nil
        else src.get k := by
    intro es
    induction es with
    | nil =>
        intro src _
        by_cases hk : src.get k = .nil <;> simp [hk]
    | cons e es ih =>
        intro src hnd
        rcases e with ⟨i, v⟩
        have htail := (List.nodupKeys_cons.mp hnd).2
        rw [List.foldl_cons, ih _ htail]
        by_cases hi : k = i
        · subst hi
          have hnone : es.dlookup k = none :=
            List.dlookup_eq_none.mpr (List.nodupKeys_cons.mp hnd).1
          by_cases hk : src.get k = .nil
          · by_cases hv : v = .nil <;> simp [hk, hv, hnone]
          · simp [hk]
        · have hsame : (if src.get i = .nil then src.set i v else src).get k =
              src.get k := by
            split
            · exact get_set_ne src v hi
            · rfl
          simp only [hsame]
          rw [List.dlookup_cons_ne es ⟨i, v⟩ hi]
  exact hfold defaults.entries src defaults.nodupKeys

end LuaTable

/-- `v[k]` for a value that may be no table. -/
def fieldOf (store : Nat → LuaTable) (v k : LuaValue) : Option LuaValue :=
  match v with
  | .table ref => some ((store ref).get k)
  | _ => none

end Iojxd
