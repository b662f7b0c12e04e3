import TileCache.Cache.Recency
import Mathlib.Data.List.Nodup

/-!
# The index as a list of distinct entries

`Recency` is a bare list, so nothing stops it from having two entries for one cell.
`Recency.Distinct` says that no cell and no tile occurs twice.  For such an index finding is
membership (`find?_eq_some_iff`), and all three operations that write do one thing: they take at
most one entry out of the list and put one at its front (`entries_promote`, `entries_move`,
`entries_insert`).  What an operation does to membership (`mem_promote`, `mem_move`) and that it
keeps the entries distinct then follow from list lemmas.
-/

set_option autoImplicit false

namespace TileCache.Recency

/-- No cell and no tile has two entries. -/
structure Distinct (r : Recency) : Prop where
  cells : (r.entries.map (·.1)).Nodup
  ids : r.ids.Nodup

variable {r : Recency} {cell source target : Origin} {id : Nat}

theorem distinct_empty : empty.Distinct := ⟨List.nodup_nil, List.nodup_nil⟩

theorem Distinct.entries (h : r.Distinct) : r.entries.Nodup := List.Nodup.of_map _ h.cells

theorem Distinct.id_eq (h : r.Distinct) {i j : Nat} (hi : (cell, i) ∈ r.entries)
    (hj : (cell, j) ∈ r.entries) : i = j :=
  congrArg Prod.snd (List.inj_on_of_nodup_map h.cells hi hj rfl)

theorem Distinct.cell_eq (h : r.Distinct) {a b : Origin} (ha : (a, id) ∈ r.entries)
    (hb : (b, id) ∈ r.entries) : a = b :=
  congrArg Prod.fst (List.inj_on_of_nodup_map h.ids ha hb rfl)

theorem mem_of_find? (h : r.find? cell = some id) : (cell, id) ∈ r.entries := by
  rw [find?, List.lookup_eq_some_iff] at h
  obtain ⟨l, l', hl, -⟩ := h
  rw [hl]
  exact List.mem_append_right _ List.mem_cons_self

theorem find?_eq_none_iff : r.find? cell = none ↔ ∀ i, (cell, i) ∉ r.entries := by
  rw [find?, List.lookup_eq_none_iff]
  constructor
  · intro h i hi
    simpa using h _ hi
  · rintro h ⟨c, i⟩ hi
    rw [bne_iff_ne]
    rintro rfl
    exact h i hi

/-- Finding is membership. -/
theorem find?_eq_some_iff (h : r.Distinct) : r.find? cell = some id ↔ (cell, id) ∈ r.entries := by
  refine ⟨mem_of_find?, fun hm => ?_⟩
  cases hf : r.find? cell with
  | none => exact absurd hm (find?_eq_none_iff.1 hf id)
  | some i => rw [h.id_eq (mem_of_find? hf) hm]

/-! ## The operations as lists -/

theorem entries_erase : ∀ {l : List (Origin × Nat)}, (l.map (·.1)).Nodup → (cell, id) ∈ l →
    l.eraseP (·.1 == cell) = l.erase (cell, id)
  | [], _, hm => by cases hm
  | (c, i) :: l, hn, hm => by
    rw [List.map_cons, List.nodup_cons] at hn
    rcases List.mem_cons.1 hm with heq | hm
    · obtain ⟨rfl, rfl⟩ := Prod.mk.inj heq
      rw [List.eraseP_cons_of_pos (by simp), List.erase_cons_head]
    · have hc : c ≠ cell := by
        rintro rfl
        exact hn.1 (List.mem_map.2 ⟨_, hm, rfl⟩)
      rw [List.eraseP_cons_of_neg (by simpa using hc), List.erase_cons_tail (by simp [hc]),
        entries_erase hn.2 hm]

theorem entries_erase_of_not_mem (h : r.find? cell = none) :
    (r.erase cell).entries = r.entries := by
  refine List.eraseP_of_forall_not fun e he => ?_
  rw [beq_iff_eq]
  rintro rfl
  exact find?_eq_none_iff.1 h e.2 he

/-- A cell without an entry gets one at the front. -/
theorem entries_insert (h : r.find? cell = none) (id : Nat) :
    (r.insert cell id).entries = (cell, id) :: r.entries := by
  rw [insert, entries_erase_of_not_mem h]

/-- The entry of the cell goes to the front. -/
theorem entries_promote (hr : r.Distinct) (h : r.find? cell = some id) :
    (r.promote cell).entries = (cell, id) :: r.entries.erase (cell, id) := by
  rw [promote, h]
  show (cell, id) :: (r.erase cell).entries = _
  rw [erase, entries_erase hr.cells (mem_of_find? h)]

/-- The entry of `source` goes to the front and is from now on that of `target`. -/
theorem entries_move (hr : r.Distinct) (hs : r.find? source = some id)
    (ht : r.find? target = none) :
    (r.move source target).entries = (target, id) :: r.entries.erase (source, id) := by
  have hne : source ≠ target := by
    rintro rfl
    rw [hs] at ht
    cases ht
  have he : (r.erase source).entries = r.entries.erase (source, id) :=
    entries_erase hr.cells (mem_of_find? hs)
  have hfree : (r.erase source).find? target = none := by
    rw [find?_eq_none_iff] at ht ⊢
    intro i hi
    rw [he] at hi
    exact ht i (List.mem_of_mem_erase hi)
  rw [move, if_neg hne, hs, ← he]
  exact entries_insert hfree id

/-! ## The operations as lists of tiles -/

theorem map_snd_erase : ∀ {l : List (Origin × Nat)}, (l.map (·.2)).Nodup → (cell, id) ∈ l →
    (l.erase (cell, id)).map (·.2) = (l.map (·.2)).erase id
  | [], _, hm => by cases hm
  | (c, i) :: l, hn, hm => by
    rw [List.map_cons, List.nodup_cons] at hn
    rcases List.mem_cons.1 hm with heq | hm
    · obtain ⟨rfl, rfl⟩ := Prod.mk.inj heq
      rw [List.erase_cons_head, List.map_cons, List.erase_cons_head]
    · have hi : i ≠ id := by
        rintro rfl
        exact hn.1 (List.mem_map.2 ⟨_, hm, rfl⟩)
      rw [List.erase_cons_tail (by simp [hi]), List.map_cons, List.map_cons,
        List.erase_cons_tail (by simpa using hi), map_snd_erase hn.2 hm]

theorem ids_insert (h : r.find? cell = none) (id : Nat) : (r.insert cell id).ids = id :: r.ids := by
  rw [ids, entries_insert h, List.map_cons, ids]

theorem ids_promote (hr : r.Distinct) (h : r.find? cell = some id) :
    (r.promote cell).ids = id :: r.ids.erase id := by
  rw [ids, entries_promote hr h, List.map_cons, map_snd_erase hr.ids (mem_of_find? h), ids]

theorem ids_move (hr : r.Distinct) (hs : r.find? source = some id) (ht : r.find? target = none) :
    (r.move source target).ids = id :: r.ids.erase id := by
  rw [ids, entries_move hr hs ht, List.map_cons, map_snd_erase hr.ids (mem_of_find? hs), ids]

/-! ## What happens to the entries -/

/-- Taking one entry out and putting one with the same tile at the front keeps all entries apart,
as long as no other entry has the new cell. -/
theorem distinct_cons_erase (hr : r.Distinct) (hs : (source, id) ∈ r.entries)
    (ht : target = source ∨ r.find? target = none) :
    (Recency.mk ((target, id) :: r.entries.erase (source, id))).Distinct := by
  have hperm := List.perm_cons_erase hs
  have hcells : ((source, id) :: r.entries.erase (source, id)).map (·.1) |>.Nodup :=
    (hperm.map _).nodup_iff.1 hr.cells
  have hids : ((source, id) :: r.entries.erase (source, id)).map (·.2) |>.Nodup :=
    (hperm.map _).nodup_iff.1 hr.ids
  refine ⟨?_, hids⟩
  rcases ht with rfl | ht
  · exact hcells
  · rw [List.map_cons, List.nodup_cons] at hcells ⊢
    refine ⟨fun hm => ?_, hcells.2⟩
    obtain ⟨⟨c, i⟩, hi, rfl⟩ := List.mem_map.1 hm
    exact find?_eq_none_iff.1 ht i (List.mem_of_mem_erase hi)

theorem mem_cons_erase (hr : r.Distinct) (hs : (source, id) ∈ r.entries) {c : Origin} {i : Nat} :
    (c, i) ∈ (target, id) :: r.entries.erase (source, id) ↔
      (i = id ∧ c = target) ∨ (i ≠ id ∧ (c, i) ∈ r.entries) := by
  rw [List.mem_cons, Prod.mk.injEq, hr.entries.mem_erase_iff]
  constructor
  · rintro (⟨rfl, rfl⟩ | ⟨hne, hm⟩)
    · exact .inl ⟨rfl, rfl⟩
    · refine .inr ⟨?_, hm⟩
      rintro rfl
      exact hne (by rw [hr.cell_eq hm hs])
  · rintro (⟨rfl, rfl⟩ | ⟨hne, hm⟩)
    · exact .inl ⟨rfl, rfl⟩
    · refine .inr ⟨?_, hm⟩
      rintro heq
      exact hne (Prod.mk.inj heq).2

theorem Distinct.promote (hr : r.Distinct) (h : r.find? cell = some id) :
    (r.promote cell).Distinct := by
  have he := distinct_cons_erase hr (mem_of_find? h) (.inl rfl)
  rwa [← entries_promote hr h] at he

theorem Distinct.move (hr : r.Distinct) (hs : r.find? source = some id)
    (ht : r.find? target = none) : (r.move source target).Distinct := by
  have he := distinct_cons_erase hr (mem_of_find? hs) (.inr ht)
  rwa [← entries_move hr hs ht] at he

theorem Distinct.insert (hr : r.Distinct) (h : r.find? cell = none) (hid : id ∉ r.ids) :
    (r.insert cell id).Distinct := by
  constructor
  · rw [entries_insert h, List.map_cons, List.nodup_cons]
    refine ⟨fun hm => ?_, hr.cells⟩
    obtain ⟨⟨c, i⟩, hi, rfl⟩ := List.mem_map.1 hm
    exact find?_eq_none_iff.1 h i hi
  · show ((r.insert cell id).entries.map (·.2)).Nodup
    rw [entries_insert h, List.map_cons, List.nodup_cons]
    exact ⟨hid, hr.ids⟩

theorem mem_promote (hr : r.Distinct) (h : r.find? cell = some id) {c : Origin} {i : Nat} :
    (c, i) ∈ (r.promote cell).entries ↔ (c, i) ∈ r.entries := by
  rw [entries_promote hr h, (List.perm_cons_erase (mem_of_find? h)).mem_iff]

theorem mem_move (hr : r.Distinct) (hs : r.find? source = some id)
    (ht : r.find? target = none) {c : Origin} {i : Nat} :
    (c, i) ∈ (r.move source target).entries ↔
      (i = id ∧ c = target) ∨ (i ≠ id ∧ (c, i) ∈ r.entries) := by
  rw [entries_move hr hs ht, mem_cons_erase hr (mem_of_find? hs)]

end TileCache.Recency
