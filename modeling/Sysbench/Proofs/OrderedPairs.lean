/-
Iterating with `orderedPairs` is folding over the sorted names.

While the loop runs, the table is the one it began with and the index behind it.  Each call
finds the current name in the index and goes on to the next; the call behind the last one
takes the index out again.  The induction is on the names that are left.
-/
import Sysbench.Lib.Runs
import Sysbench.Model.OrderedPairs

namespace Sysbench.Cmdline

open List Options Runs

variable {V A : Type} {t : LuaTable V} {key : Text} {slot : Slot V}

/-! ### The table with its index -/

namespace LuaTable

theorem erase_of_notMem (h : key ∉ t.keys) : t.erase key = t := by
  refine filter_eq_self.mpr fun e he => ?_
  simpa using ne_of_mem_of_not_mem (mem_map_of_mem he) h

theorem erase_append (h : key ∉ t.keys) : erase (t ++ [(key, slot)]) key = t := by
  rw [erase, filter_append, ← erase, erase_of_notMem h]
  simp

theorem get_append_self (h : key ∉ t.keys) : get (t ++ [(key, slot)]) key = some slot := by
  have hnone : t.lookup key = none := by
    rw [lookup_eq_none_iff]
    intro e he
    simpa using (ne_of_mem_of_not_mem (mem_map_of_mem he) h).symm
  rw [get, lookup_append, hnone]
  simp

theorem get_append_of_ne {k : Text} (h : k ≠ key) : get (t ++ [(key, slot)]) k = t.get k := by
  have hnone : [(key, slot)].lookup k = none := by
    simp [lookup_cons, beq_eq_false_iff_ne.mpr h]
  rw [get, lookup_append, hnone, Option.or_none, get]

end LuaTable

/-- The key behind the current one; a name stands in the index once. -/
theorem nextKey_append {done rest : List Text} (h : (done ++ key :: rest).Nodup) :
    nextKey (done ++ key :: rest) key = rest[0]? := by
  have hat : (done ++ key :: rest)[done.length]? = some key := by simp
  have hloop : ∀ n, (range n).foldl (fun k i => if (done ++ key :: rest)[i]? = some key
      then (done ++ key :: rest)[i + 1]? else k) none
        = if done.length < n then rest[0]? else none := by
    intro n
    induction n with
    | zero => rfl
    | succ n ih =>
      rw [range_succ, foldl_append, ih, foldl_cons, foldl_nil]
      by_cases hn : (done ++ key :: rest)[n]? = some key
      · have hlt : done.length < (done ++ key :: rest).length := by simp
        obtain rfl : done.length = n := (getElem?_inj hlt h).mp (hat.trans hn.symm)
        rw [if_pos hn, if_pos (Nat.lt_succ_self _), getElem?_append_right (Nat.le_succ _)]
        simp
      · have hne : done.length ≠ n := fun hc => hn (hc ▸ hat)
        rw [if_neg hn]
        exact if_congr (by omega) rfl rfl
  rw [nextKey, hloop, if_pos (by simp)]

theorem perm_index (t : LuaTable V) : (genOrderedIndex t).Perm t.keys :=
  perm_insertionSort (· ≤ ·) t.keys

theorem length_index (t : LuaTable V) : (genOrderedIndex t).length = t.length :=
  (perm_index t).length_eq.trans (length_map _)

theorem ne_of_mem_index (hname : orderedIndex ∉ t.keys) (h : key ∈ genOrderedIndex t) :
    key ≠ orderedIndex :=
  ne_of_mem_of_not_mem ((perm_index t).mem_iff.mp h) hname

theorem orderedNext_of_index (hkeys : t.keys.Nodup) (hname : orderedIndex ∉ t.keys)
    {done rest : List Text} (hindex : genOrderedIndex t = done ++ key :: rest) :
    orderedNext (t ++ [(orderedIndex, .index (genOrderedIndex t))]) (some key)
      = .ok (match rest with
        | [] => (t, none)
        | k :: _ => (t ++ [(orderedIndex, .index (genOrderedIndex t))], some (k, t.get k))) := by
  have hnext : nextKey (genOrderedIndex t) key = rest[0]? := by
    rw [hindex]
    exact nextKey_append (hindex ▸ (perm_index t).nodup_iff.mpr hkeys)
  rw [orderedNext, LuaTable.get_append_self hname]
  simp only [hnext]
  cases rest with
  | nil =>
    show Except.ok (LuaTable.erase _ _, none) = _
    rw [LuaTable.erase_append hname]
  | cons k rest =>
    have hk : k ∈ genOrderedIndex t := by simp [hindex]
    show Except.ok (_, some (k, LuaTable.get _ k)) = _
    rw [LuaTable.get_append_of_ne (ne_of_mem_index hname hk)]

/-! ### The loop -/

variable {body : A → Text → Option (Slot V) → Except LuaError A}

theorem forOrdered_from (hkeys : t.keys.Nodup) (hname : orderedIndex ∉ t.keys) :
    ∀ {rest done : List Text} {key : Text} {fuel : ℕ} (a : A),
      genOrderedIndex t = done ++ key :: rest → rest.length < fuel →
      forOrdered body fuel (t ++ [(orderedIndex, .index (genOrderedIndex t))]) (some key) a
        = rest.foldlM (fun a k => body a k (t.get k)) a >>= fun a => .ok (t, a) := by
  intro rest
  induction rest with
  | nil =>
    intro done key fuel a hindex hfuel
    obtain ⟨fuel, rfl⟩ := Nat.exists_eq_succ_of_ne_zero (Nat.ne_zero_of_lt hfuel)
    rw [forOrdered, orderedNext_of_index hkeys hname hindex]
    rfl
  | cons k rest ih =>
    intro done key fuel a hindex hfuel
    obtain ⟨fuel, rfl⟩ := Nat.exists_eq_succ_of_ne_zero (Nat.ne_zero_of_lt hfuel)
    rw [forOrdered, orderedNext_of_index hkeys hname hindex, foldlM_cons]
    show (body a k (t.get k) >>= fun a => forOrdered body fuel _ (some k) a) = _
    rw [bind_assoc]
    refine congrArg _ (funext fun a => ?_)
    have hnext : genOrderedIndex t = (done ++ [key]) ++ k :: rest := by simp [hindex]
    exact ih a hnext (Nat.lt_of_succ_lt_succ hfuel)

/-- From the first call on. -/
theorem forOrdered_eq (hkeys : t.keys.Nodup) (hname : orderedIndex ∉ t.keys) {fuel : ℕ}
    (hfuel : t.length < fuel) (a : A) :
    forOrdered body fuel t none a
      = (genOrderedIndex t).foldlM (fun a k => body a k (t.get k)) a >>= fun a => .ok (t, a) := by
  obtain ⟨fuel, rfl⟩ := Nat.exists_eq_succ_of_ne_zero (Nat.ne_zero_of_lt hfuel)
  have hlen := length_index t
  rw [forOrdered, orderedNext, LuaTable.set, LuaTable.erase_of_notMem hname]
  cases hindex : genOrderedIndex t with
  | nil =>
    show Except.ok (LuaTable.erase _ _, a) = _
    rw [LuaTable.erase_append hname]
    rfl
  | cons k rest =>
    have hk : k ∈ genOrderedIndex t := by simp [hindex]
    show (body a k (LuaTable.get (t ++ [(orderedIndex, .index (k :: rest))]) k) >>= fun a =>
      forOrdered body fuel (t ++ [(orderedIndex, .index (k :: rest))]) (some k) a) = _
    rw [LuaTable.get_append_of_ne (ne_of_mem_index hname hk), foldlM_cons, bind_assoc]
    refine congrArg _ (funext fun a => ?_)
    rw [← hindex]
    have hfirst : genOrderedIndex t = [] ++ k :: rest := hindex
    refine forOrdered_from hkeys hname a hfirst ?_
    rw [hindex, length_cons] at hlen
    omega

/-! ### The array -/

theorem foldlM_fill (keys : List Text) (arg : Text → Except LuaError SbArg) :
    ∀ done : List SbArg,
      keys.foldlM (fun (p : List (Option SbArg) × ℕ) name => do
          let arg ← arg name
          if p.2 < p.1.length then pure (p.1.set p.2 (some arg), p.2 + 1) else .error .outOfBounds)
        (done.map some ++ replicate keys.length none, done.length)
        = keys.mapM arg >>= fun args =>
          .ok ((done ++ args).map some, done.length + keys.length) := by
  induction keys with
  | nil =>
    intro done
    show pure (done.map some ++ [], done.length) = Except.ok ((done ++ []).map some, done.length)
    rw [append_nil, append_nil]
    rfl
  | cons k keys ih =>
    intro done
    rw [foldlM_cons, mapM_cons, bind_assoc, bind_assoc]
    refine congrArg _ (funext fun a => ?_)
    have hset : (done.map some ++ replicate (k :: keys).length none).set done.length (some a)
        = (done ++ [a]).map some ++ replicate keys.length none := by
      simp [replicate_succ]
    have hlt : done.length < (done.map some ++ replicate (k :: keys).length none).length := by simp
    rw [if_pos hlt]
    show foldlM _ ((done.map some ++ replicate (k :: keys).length none).set done.length (some a), _)
      _ = _
    have hrest := ih (done ++ [a])
    rw [length_append] at hrest
    rw [hset]
    refine hrest.trans ?_
    rw [bind_assoc]
    refine congrArg _ (funext fun args => congrArg Except.ok (Prod.ext ?_ ?_))
    · simp
    · simp only [length_cons, length_nil]
      omega

theorem length_of_mapM {keys : List Text} {arg : Text → Except LuaError SbArg} :
    ∀ {args : List SbArg}, keys.mapM arg = .ok args → args.length = keys.length := by
  induction keys with
  | nil =>
    intro args h
    cases h
    rfl
  | cons k keys ih =>
    intro args h
    rw [mapM_cons] at h
    obtain ⟨a, -, h⟩ := bind_eq_ok.mp h
    obtain ⟨rest, hrest, h⟩ := bind_eq_ok.mp h
    cases h
    exact congrArg (· + 1) (ih hrest)

/-- **Ordered traversal.**  Iterating with `orderedPairs` calls the body once for each key, in
ascending order, and leaves the table as it was; and `read_cmdline_options` fills the array it
has allocated with the options in this order. -/
theorem ordered_traversal :
    (∀ {V A : Type} (t : LuaTable V), t.keys.Nodup → orderedIndex ∉ t.keys →
      (genOrderedIndex t).Perm t.keys ∧ (genOrderedIndex t).Pairwise (· < ·) ∧
      ∀ (body : A → Text → Option (Slot V) → Except LuaError A) (fuel : ℕ) (a : A),
        t.length < fuel → forOrdered body fuel t none a
          = (genOrderedIndex t).foldlM (fun a k => body a k (t.get k)) a >>= fun a => .ok (t, a)) ∧
    ∀ (options : LuaTable (Option OptionDef)) (fuel : ℕ), options.keys.Nodup →
      orderedIndex ∉ options.keys → options.length < fuel →
      readCmdlineOptions fuel options
        = (genOrderedIndex options).mapM (fun name => optionArg name (options.get name))
          >>= (fun args => .ok (options, args.map some, options.length)) ∧
      ∀ args, (genOrderedIndex options).mapM (fun name => optionArg name (options.get name))
        = .ok args → args.length = options.length := by
  refine ⟨fun t hkeys hname => ⟨perm_index t, ?_, fun body fuel a hfuel => ?_⟩, ?_⟩
  · have hsorted := pairwise_insertionSort (· ≤ ·) t.keys
    have hnodup : (genOrderedIndex t).Nodup := (perm_index t).nodup_iff.mpr hkeys
    exact (hsorted.and hnodup).imp fun h => lt_of_le_of_ne h.1 h.2
  · exact forOrdered_eq hkeys hname hfuel a
  · intro options fuel hkeys hname hfuel
    have hlen := length_index options
    refine ⟨?_, fun args hargs => (length_of_mapM hargs).trans hlen⟩
    have hfill := foldlM_fill (genOrderedIndex options)
      (fun name => optionArg name (options.get name)) []
    rw [hlen] at hfill
    rw [readCmdlineOptions, forOrdered_eq hkeys hname hfuel]
    refine (congrArg (· >>= fun a => .ok (options, a)) hfill).trans ?_
    simp only [bind_assoc]
    refine congrArg _ (funext fun args => ?_)
    simp only [nil_append, length_nil, zero_add]
    rfl

def tablesAndMode : LuaTable (Option OptionDef) :=
  [("tables".toList, .value (some ⟨some "Tables".toList, .number ['1'], some .int, none⟩)),
    ("mode".toList, .value (some ⟨some "Mode".toList, .nil, none, none⟩))]

theorem mode_before_tables :
    readCmdlineOptions 3 tablesAndMode = .ok (tablesAndMode,
      [some ⟨"mode".toList, none, .string, none⟩, some ⟨"tables".toList, some ['1'], .int, none⟩],
      2) :=
  (ordered_traversal.2 tablesAndMode 3 (by decide) (by decide) (by decide)).1

end Sysbench.Cmdline
