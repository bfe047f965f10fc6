import Cascade.Buffer.Window

/-!
# Places in a dictionary and in a window

An insertion either replaces the value at the place of its key or adds one
value to those that are held.  The groups of a window are its values, so these
two cases are what a window undergoes when a record write is buffered.
-/

namespace Cascade

namespace Assoc

variable {κ β : Type} [KeyOrder κ] [DecidableEq κ]

omit [KeyOrder κ] in
theorem mem_of_get?_eq_some
    {key : κ} {held : β} {entries : List (κ × β)}
    (hget : get? key entries = some held) :
    (key, held) ∈ entries := by
  induction entries with
  | nil => simp [get?] at hget
  | cons head rest ih =>
      obtain ⟨other, value⟩ := head
      by_cases hkey : other = key
      · have hvalue : value = held := by simpa [get?, hkey] using hget
        simp [hkey, hvalue]
      · have hrest : get? key rest = some held := by simpa [get?, hkey] using hget
        exact List.mem_cons_of_mem _ (ih hrest)

omit [KeyOrder κ] in
theorem get?_eq_none_iff
    {key : κ} {entries : List (κ × β)} :
    get? key entries = none ↔ ∀ entry ∈ entries, entry.1 ≠ key := by
  induction entries with
  | nil => simp [get?]
  | cons head rest ih =>
      by_cases hkey : head.1 = key <;> simp [get?, hkey, ih]

omit [KeyOrder κ] in
theorem get?_map {γ : Type} (f : β → γ) (key : κ) (entries : List (κ × β)) :
    get? key (entries.map (fun entry => (entry.1, f entry.2))) = (get? key entries).map f := by
  induction entries with
  | nil => rfl
  | cons head rest ih =>
      by_cases h : head.1 = key
      · simp [get?, h]
      · simp [get?, h, ih]

omit [KeyOrder κ] in
/-- Among entries with keys of their own, each key leads to its value. -/
theorem get?_eq_some_of_mem
    {key : κ} {held : β} {entries : List (κ × β)} (h : (entries.map Prod.fst).Nodup)
    (hmem : (key, held) ∈ entries) : get? key entries = some held := by
  induction entries with
  | nil => cases hmem
  | cons head rest ih =>
      obtain ⟨hnot, hrest⟩ := List.nodup_cons.1 h
      rcases List.mem_cons.1 hmem with rfl | hmem
      · simp [get?]
      · have hne : head.1 ≠ key := by
          rintro rfl
          exact hnot (List.mem_map.2 ⟨_, hmem, rfl⟩)
        simp [get?, hne, ih hrest hmem]

/-- An insertion under a key that is held replaces the value in its place. -/
theorem insert_of_get?_eq_some
    {key : κ} {held : β} {entries : List (κ × β)}
    (h : Ascending entries) (hget : get? key entries = some held) :
    ∃ front back, entries = front ++ (key, held) :: back ∧
      ∀ value, insert key value entries = front ++ (key, value) :: back := by
  induction entries with
  | nil => simp [get?] at hget
  | cons head rest ih =>
      obtain ⟨other, found⟩ := head
      have hhead := (List.pairwise_cons.1 h).1
      have hrest : Ascending rest := (List.pairwise_cons.1 h).2
      by_cases hkey : other = key
      · subst other
        have hfound : found = held := by simpa [get?] using hget
        refine ⟨[], rest, by simp [hfound], fun value => ?_⟩
        simp [insert, KeyOrder.irrefl]
      · have hget' : get? key rest = some held := by simpa [get?, hkey] using hget
        have hlt : other < key := hhead _ (mem_of_get?_eq_some hget')
        have hnot : ¬key < other := fun hgt =>
          KeyOrder.irrefl other (KeyOrder.trans hlt hgt)
        obtain ⟨front, back, heq, hinsert⟩ := ih hrest hget'
        refine ⟨(other, found) :: front, back, by simp [heq], fun value => ?_⟩
        simp [insert, hnot, hlt, hinsert value]

theorem insert_perm_of_get?_eq_none
    {key : κ} {entries : List (κ × β)}
    (hget : get? key entries = none) (value : β) :
    (insert key value entries).Perm ((key, value) :: entries) := by
  induction entries with
  | nil => exact List.Perm.refl _
  | cons head rest ih =>
      obtain ⟨other, found⟩ := head
      by_cases hkey : other = key
      · simp [get?, hkey] at hget
      · have hget' : get? key rest = none := by simpa [get?, hkey] using hget
        simp only [insert]
        split
        · exact List.Perm.refl _
        · next hnot =>
          split
          · exact ((ih hget').cons _).trans (List.Perm.swap _ _ _)
          · next hnot' => exact absurd (KeyOrder.eq_of_not_lt hnot' hnot) hkey

omit [DecidableEq κ] in
theorem Ascending.nodup_keys {entries : List (κ × β)} (h : Ascending entries) :
    (entries.map Prod.fst).Nodup := by
  refine List.pairwise_map.2 (h.imp ?_)
  intro a b hlt heq
  rw [heq] at hlt
  exact KeyOrder.irrefl _ hlt

omit [DecidableEq κ] in
/-- Entries in ascending order are settled by what is among them. -/
theorem Ascending.ext
    {entries others : List (κ × β)} (h : Ascending entries) (hothers : Ascending others)
    (hsame : ∀ entry, entry ∈ entries ↔ entry ∈ others) : entries = others := by
  have hnodup : ∀ {entries : List (κ × β)}, Ascending entries → entries.Nodup := by
    intro entries hentries
    refine (List.pairwise_map.1 hentries.nodup_keys).imp ?_
    exact fun hkeys heq => hkeys (congrArg Prod.fst heq)
  have hanti : ∀ a b, a ∈ entries → b ∈ others → a.1 < b.1 → b.1 < a.1 → a = b := by
    intro a b _ _ hab hba
    exact absurd (KeyOrder.trans hab hba) (KeyOrder.irrefl _)
  exact List.Perm.eq_of_pairwise hanti h hothers
    ((List.perm_ext_iff_of_nodup (hnodup h) (hnodup hothers)).2 hsame)

end Assoc

namespace Dictionary

variable {κ β γ : Type} [KeyOrder κ] [DecidableEq κ]

omit [DecidableEq κ] in
theorem nodup_keys (d : Dictionary κ β) : (d.entries.map Prod.fst).Nodup :=
  d.ascending.nodup_keys

theorem mem_values_of_get?_eq_some
    {d : Dictionary κ β} {key : κ} {held : β} (hget : d.get? key = some held) :
    held ∈ d.values :=
  List.mem_map_of_mem (Assoc.mem_of_get?_eq_some hget)

theorem exists_get?_of_mem_values {d : Dictionary κ β} {held : β} (hmem : held ∈ d.values) :
    ∃ key, d.get? key = some held := by
  obtain ⟨⟨key, value⟩, hentry, rfl⟩ := List.mem_map.1 hmem
  exact ⟨key, Assoc.get?_eq_some_of_mem d.nodup_keys hentry⟩

/-- An insertion under a key that is held replaces one of the values in its place. -/
theorem values_insert_of_get?_eq_some
    {d : Dictionary κ β} {key : κ} {held : β} (hget : d.get? key = some held) :
    ∃ front back, d.values = front ++ held :: back ∧
      ∀ value, (d.insert key value).values = front ++ value :: back := by
  obtain ⟨front, back, heq, hinsert⟩ := Assoc.insert_of_get?_eq_some d.ascending hget
  refine ⟨front.map Prod.snd, back.map Prod.snd, ?_, fun value => ?_⟩
  · rw [values, heq]
    simp
  · change (Assoc.insert key value d.entries).map Prod.snd = _
    rw [hinsert value]
    simp

theorem values_insert_perm_of_get?_eq_none
    {d : Dictionary κ β} {key : κ} (hget : d.get? key = none) (value : β) :
    (d.insert key value).values.Perm (value :: d.values) :=
  (Assoc.insert_perm_of_get?_eq_none hget value).map Prod.snd

theorem mem_entries_iff {d : Dictionary κ β} {key : κ} {held : β} :
    (key, held) ∈ d.entries ↔ d.get? key = some held :=
  ⟨Assoc.get?_eq_some_of_mem d.nodup_keys, Assoc.mem_of_get?_eq_some⟩

theorem contains_iff {d : Dictionary κ β} {key : κ} :
    d.contains key = true ↔ ∃ held, d.get? key = some held :=
  Option.isSome_iff_exists

theorem contains_insertAll_iff {d : Dictionary κ β} {pairs : List (κ × β)} {key : κ} :
    (d.insertAll pairs).contains key = true ↔
      key ∈ pairs.map Prod.fst ∨ d.contains key = true := by
  induction pairs generalizing d with
  | nil => simp [insertAll]
  | cons pair rest ih =>
      have hinsert : (d.insert pair.1 pair.2).contains key = true ↔
          key = pair.1 ∨ d.contains key = true := by
        rw [contains, contains, get?_insert]
        by_cases hkey : pair.1 = key
        · simp [hkey]
        · simp [hkey, Ne.symm hkey]
      calc (d.insertAll (pair :: rest)).contains key = true
          ↔ key ∈ rest.map Prod.fst ∨ (d.insert pair.1 pair.2).contains key = true := ih
        _ ↔ key ∈ rest.map Prod.fst ∨ key = pair.1 ∨ d.contains key = true :=
          or_congr_right hinsert
        _ ↔ key ∈ (pair :: rest).map Prod.fst ∨ d.contains key = true := by
          rw [List.map_cons, List.mem_cons, or_assoc, or_left_comm]

omit [DecidableEq κ] in
theorem insertAll_append (first second : List (κ × β)) (d : Dictionary κ β) :
    d.insertAll (first ++ second) = (d.insertAll first).insertAll second :=
  List.foldl_append

/-- What is inserted under keys of its own that are not held is added to what is held. -/
theorem perm_insertAll
    {d : Dictionary κ β} {pairs : List (κ × β)}
    (h : ((d.entries ++ pairs).map Prod.fst).Nodup) :
    (d.insertAll pairs).entries.Perm (d.entries ++ pairs) := by
  induction pairs generalizing d with
  | nil => exact .of_eq (List.append_nil _).symm
  | cons head rest ih =>
      have hmiddle : (d.entries ++ head :: rest).Perm (head :: d.entries ++ rest) :=
        List.perm_middle
      have hnodup := (hmiddle.map Prod.fst).nodup_iff.1 h
      rw [List.cons_append, List.map_cons, List.nodup_cons] at hnodup
      have hnone : Assoc.get? head.1 d.entries = none := by
        refine Assoc.get?_eq_none_iff.2 (fun entry hmem heq => hnodup.1 ?_)
        rw [← heq]
        exact List.mem_map_of_mem (List.mem_append_left _ hmem)
      have hinsert : ((d.insert head.1 head.2).entries ++ rest).Perm (d.entries ++ head :: rest) :=
        ((Assoc.insert_perm_of_get?_eq_none hnone head.2).append_right rest).trans hmiddle.symm
      exact (ih ((hinsert.map Prod.fst).nodup_iff.2 h)).trans hinsert

omit [DecidableEq κ] in
@[simp] theorem values_mapValues (f : β → γ) (d : Dictionary κ β) :
    (d.mapValues f).values = d.values.map f := by
  simp [values, mapValues]

end Dictionary

end Cascade
