import Mathlib.Data.List.SplitBy
import Mathlib.Data.List.TakeWhile
import Cascade.Proofs.Keys

/-!
# Pieces of runs

The calls of a group of records can be read off the list of its bound writes: the
list falls into runs of writes with one text, and each run is cut into pieces of
the batch size.  The planning of calls keeps an open piece instead, and closes it
when the text changes or the piece is full.

When the calls are executed, nothing waits in the group or among the statements
afterwards, whether or not the store refuses one of them.
-/

namespace Cascade

/-! ## Pieces -/

section Pieces

variable {α : Type}

/-- The pieces of a list: each has `size` elements, the last one those that are left.  A size of zero
counts as one. -/
def pieces (size : Nat) : List α → List (List α)
  | [] => []
  | entry :: rest => (entry :: rest.take (size - 1)) :: pieces size (rest.drop (size - 1))
termination_by entries => entries.length
decreasing_by
  simp only [List.length_drop, List.length_cons]
  omega

theorem flatten_pieces (size : Nat) (entries : List α) : (pieces size entries).flatten = entries := by
  fun_induction pieces size entries with
  | case1 => rfl
  | case2 entry rest ih => rw [List.flatten_cons, ih, List.cons_append, List.take_append_drop]

theorem length_of_mem_pieces {size : Nat} {entries piece : List α} (h : piece ∈ pieces size entries) :
    1 ≤ piece.length ∧ piece.length ≤ max size 1 := by
  fun_induction pieces size entries with
  | case1 => cases h
  | case2 entry rest ih =>
      rcases List.mem_cons.1 h with rfl | h
      · simp only [List.length_cons, List.length_take]
        omega
      · exact ih h

theorem length_of_mem_dropLast_pieces
    {size : Nat} {entries piece : List α} (h : piece ∈ (pieces size entries).dropLast) :
    piece.length = max size 1 := by
  fun_induction pieces size entries with
  | case1 => cases h
  | case2 entry rest ih =>
      rcases hlater : pieces size (rest.drop (size - 1)) with _ | ⟨next, others⟩
      · rw [hlater] at h
        cases h
      · rw [hlater, List.dropLast_cons_cons] at h
        rcases List.mem_cons.1 h with rfl | h
        · -- Something is left behind the piece, so it took all that it can hold.
          have hleft : rest.drop (size - 1) ≠ [] := by
            intro hnone
            rw [hnone, pieces] at hlater
            cases hlater
          have hlength := List.length_pos_iff.2 hleft
          rw [List.length_drop] at hlength
          simp only [List.length_cons, List.length_take]
          omega
        · rw [hlater] at ih
          exact ih h

theorem pieces_of_length_le
    {size : Nat} {entries : List α} (hne : entries ≠ []) (hle : entries.length ≤ max size 1) :
    pieces size entries = [entries] := by
  obtain ⟨entry, rest, rfl⟩ := List.exists_cons_of_ne_nil hne
  rw [List.length_cons] at hle
  have hfits : rest.length ≤ size - 1 := by omega
  rw [pieces, List.take_of_length_le hfits, List.drop_eq_nil_of_le hfits, pieces]

/-- A full piece is cut off a list that begins with it. -/
theorem pieces_append
    {size : Nat} {piece : List α} (hfull : piece.length = max size 1) (rest : List α) :
    pieces size (piece ++ rest) = piece :: pieces size rest := by
  obtain ⟨entry, tail, rfl⟩ : ∃ entry tail, piece = entry :: tail := by
    apply List.exists_cons_of_length_pos
    omega
  rw [List.length_cons] at hfull
  have htail : size - 1 = tail.length := by omega
  rw [List.cons_append, pieces, htail, List.take_left, List.drop_left]

end Pieces

/-! ## Runs -/

def Parcel.sameText (a b : Parcel) : Bool :=
  a.statement.text == b.statement.text

/-- The pieces of some parcels: the longest runs of one text, each cut into pieces. -/
def cuts (size : Nat) (parcels : List Parcel) : List (List Parcel) :=
  (parcels.splitBy Parcel.sameText).flatMap (pieces size)

theorem length_of_mem_cuts {size : Nat} {parcels piece : List Parcel} (h : piece ∈ cuts size parcels) :
    1 ≤ piece.length ∧ piece.length ≤ max size 1 := by
  obtain ⟨run, -, hpiece⟩ := List.mem_flatMap.1 h
  exact length_of_mem_pieces hpiece

section Runs

variable {text : String} {run : List Parcel}

/-- A run of one text in front of another text, or of nothing, is a run by itself. -/
theorem splitBy_append_of_text
    (hne : run ≠ []) (hrun : ∀ parcel ∈ run, parcel.statement.text = text) {rest : List Parcel}
    (hrest : ∀ next ∈ rest.head?, next.statement.text ≠ text) :
    (run ++ rest).splitBy Parcel.sameText = run :: rest.splitBy Parcel.sameText := by
  have hchain : run.IsChain (fun a b => Parcel.sameText a b) := by
    refine List.Pairwise.isChain (List.pairwise_of_forall_mem_list ?_)
    intro a ha b hb
    simp [Parcel.sameText, hrun a ha, hrun b hb]
  rw [List.splitBy_append, List.splitBy_of_isChain hne hchain, List.singleton_append]
  intro last hlast next hnext
  have htext := hrun last (List.mem_of_mem_getLast? hlast)
  simpa [Parcel.sameText, htext] using (hrest next hnext).symm

theorem cuts_append_of_text
    (size : Nat) (hrun : ∀ parcel ∈ run, parcel.statement.text = text) {rest : List Parcel}
    (hrest : ∀ next ∈ rest.head?, next.statement.text ≠ text) :
    cuts size (run ++ rest) = pieces size run ++ cuts size rest := by
  rcases eq_or_ne run [] with rfl | hne
  · rw [pieces, List.nil_append, List.nil_append]
  · rw [cuts, splitBy_append_of_text hne hrun hrest, List.flatMap_cons, cuts]

theorem cuts_append_of_full
    {size : Nat} (hrun : ∀ parcel ∈ run, parcel.statement.text = text)
    (hfull : run.length = max size 1) (rest : List Parcel) :
    cuts size (run ++ rest) = run :: cuts size rest := by
  -- The parcels behind the piece that have its text are of the same run.
  obtain ⟨same, others, rfl, hsame, hothers⟩ : ∃ same others, rest = same ++ others ∧
      (∀ parcel ∈ same, parcel.statement.text = text) ∧
      ∀ next ∈ others.head?, next.statement.text ≠ text := by
    refine ⟨rest.takeWhile (·.statement.text == text), rest.dropWhile (·.statement.text == text),
      List.takeWhile_append_dropWhile.symm, ?_, ?_⟩
    · intro parcel hmem
      simpa using List.mem_takeWhile_imp hmem
    · intro next hnext
      have hnot := List.head?_dropWhile_not (·.statement.text == text) rest
      rw [Option.mem_def.1 hnext] at hnot
      simpa using hnot
  have hwhole : ∀ parcel ∈ run ++ same, parcel.statement.text = text := by
    intro parcel hmem
    rcases List.mem_append.1 hmem with hmem | hmem
    · exact hrun parcel hmem
    · exact hsame parcel hmem
  calc cuts size (run ++ (same ++ others))
      = pieces size (run ++ same) ++ cuts size others := by
        rw [← List.append_assoc, cuts_append_of_text size hwhole hothers]
    _ = run :: (pieces size same ++ cuts size others) := by
        rw [pieces_append hfull, List.cons_append]
    _ = run :: cuts size (same ++ others) := by
        rw [cuts_append_of_text size hsame hothers]

/-- A piece of one text is cut off what follows it if it is full or another text follows. -/
theorem cuts_append
    {size : Nat} (hne : run ≠ []) (hrun : ∀ parcel ∈ run, parcel.statement.text = text)
    (hle : run.length ≤ max size 1) {rest : List Parcel}
    (hclosed : run.length = max size 1 ∨ ∀ next ∈ rest.head?, next.statement.text ≠ text) :
    cuts size (run ++ rest) = run :: cuts size rest := by
  rcases hclosed with hfull | hother
  · exact cuts_append_of_full hrun hfull rest
  · rw [cuts_append_of_text size hrun hother, pieces_of_length_le hne hle, List.singleton_append]

end Runs

/-! ## Neighbours -/

section Neighbours

variable {α : Type} {size : Nat} {first second : α}

/-- Two entries that stand one behind the other are in one of some lists, unless a list is full with
the first of them; then the second begins the next list. -/
inductive Neighbours (size : Nat) (first second : α) : List (List α) → Prop
  | together {earlier later : List (List α)} {front back : List α} :
      Neighbours size first second (earlier ++ (front ++ first :: second :: back) :: later)
  | parted {earlier later : List (List α)} {front back : List α} (hfull : front.length + 1 = size) :
      Neighbours size first second
        (earlier ++ (front ++ [first]) :: (second :: back) :: later)

theorem Neighbours.append
    {lists : List (List α)} (h : Neighbours size first second lists)
    (before after : List (List α)) : Neighbours size first second (before ++ lists ++ after) := by
  cases h with
  | @together earlier later front back =>
      have hsame : before ++ (earlier ++ (front ++ first :: second :: back) :: later) ++ after =
          (before ++ earlier) ++ (front ++ first :: second :: back) :: (later ++ after) := by
        simp
      rw [hsame]
      exact .together
  | @parted earlier later front back hfull =>
      have hsame : before ++ (earlier ++ (front ++ [first]) :: (second :: back) :: later) ++ after =
          (before ++ earlier) ++ (front ++ [first]) :: (second :: back) :: (later ++ after) := by
        simp
      rw [hsame]
      exact .parted hfull

/-- Of two entries that stand one behind the other in some lists, the second is in the list of the
first or begins the next one. -/
theorem neighbours_cases
    {lists : List (List α)} {before after : List α} (hne : [] ∉ lists)
    (h : lists.flatten = before ++ first :: second :: after) :
    (∃ earlier front back later, lists = earlier ++ (front ++ first :: second :: back) :: later) ∨
      ∃ earlier front back later,
        lists = earlier ++ (front ++ [first]) :: (second :: back) :: later := by
  obtain ⟨earlier, front, back, later, rfl, hrest⟩ : ∃ earlier front back later,
      lists = earlier ++ (front ++ first :: back) :: later ∧
        second :: after = back ++ later.flatten := by
    rcases List.flatten_eq_append_iff.1 h with
      ⟨earlier, others, rfl, -, hothers⟩ | ⟨earlier, front, entry, back, later, rfl, -, hrest⟩
    · obtain ⟨empty, back, later, rfl, -, hrest⟩ := List.flatten_eq_cons_iff.1 hothers.symm
      exact ⟨earlier ++ empty, [], back, later, by simp, hrest⟩
    · obtain ⟨rfl, hbehind⟩ := List.cons.inj hrest
      exact ⟨earlier, front, back, later, rfl, hbehind⟩
  cases back with
  | cons next back =>
      obtain ⟨rfl, -⟩ := List.cons.inj hrest
      exact Or.inl ⟨earlier, front, back, later, rfl⟩
  | nil =>
      cases later with
      | nil => cases hrest
      | cons next later =>
          have hnext : next ≠ [] := by
            rintro rfl
            simp at hne
          obtain ⟨entry, back, rfl⟩ := List.exists_cons_of_ne_nil hnext
          obtain ⟨rfl, -⟩ := List.cons.inj hrest
          exact Or.inr ⟨earlier, front, back, later, rfl⟩

theorem neighbours_pieces (size : Nat) (before after : List α) :
    Neighbours (max size 1) first second (pieces size (before ++ first :: second :: after)) := by
  have hne : [] ∉ pieces size (before ++ first :: second :: after) := by
    intro hmem
    exact Nat.not_succ_le_zero 0 (length_of_mem_pieces hmem).1
  rcases neighbours_cases hne (flatten_pieces _ _) with
    ⟨earlier, front, back, later, hpieces⟩ | ⟨earlier, front, back, later, hpieces⟩
  · rw [hpieces]
    exact .together
  · -- The list of the first one is not the last list.
    have hmem : front ++ [first] ∈
        (pieces size (before ++ first :: second :: after)).dropLast := by
      rw [hpieces]
      simp [List.dropLast_cons_cons]
    rw [hpieces]
    exact .parted (by simpa using length_of_mem_dropLast_pieces hmem)

end Neighbours

/-- Neighbours with one text are in one run. -/
theorem exists_run
    {first second : Parcel} (h : first.statement.text = second.statement.text)
    (before after : List Parcel) :
    ∃ earlier front back later,
      (before ++ first :: second :: after).splitBy Parcel.sameText =
        earlier ++ (front ++ first :: second :: back) :: later := by
  rcases neighbours_cases (List.nil_notMem_splitBy _ _) (List.flatten_splitBy Parcel.sameText _)
    with hrun | ⟨earlier, front, back, later, hruns⟩
  · exact hrun
  · -- Where a run begins, the text is another.
    have hchain := List.isChain_getLast_head_splitBy Parcel.sameText
      (before ++ first :: second :: after)
    rw [hruns] at hchain
    obtain ⟨_, _, hnot⟩ := (List.isChain_append_cons_cons.1 hchain).2.1
    simp [Parcel.sameText, h] at hnot

/-- Neighbours with one text are cut apart only where a piece is full. -/
theorem neighbours_cuts
    (size : Nat) {first second : Parcel} (h : first.statement.text = second.statement.text)
    (before after : List Parcel) :
    Neighbours (max size 1) first second (cuts size (before ++ first :: second :: after)) := by
  obtain ⟨earlier, front, back, later, hruns⟩ := exists_run h before after
  rw [cuts, hruns, List.flatMap_append, List.flatMap_cons, ← List.append_assoc]
  exact (neighbours_pieces size front back).append _ _

/-! ## The calls of a group of records -/

namespace StatementGroup

theorem parcels_ne_nil {group : StatementGroup} (h : group.waiting ≠ []) : group.parcels ≠ [] := by
  rwa [parcels, Ne, List.map_eq_nil_iff]

/-- The group whose call sends a piece: the text is that of the first parcel. -/
def ofPiece? (piece : List Parcel) : Option StatementGroup :=
  piece.head?.map (fun first =>
    ⟨first.statement.text, first.statement.isInsert,
      piece.map (fun parcel => ⟨parcel.statement.params, parcel.origin⟩)⟩)

theorem ofPiece?_parcels {group : StatementGroup} (hne : group.waiting ≠ []) (h : group.Marked) :
    ofPiece? group.parcels = some group := by
  obtain ⟨text, isInsert, waiting⟩ := group
  obtain ⟨entry, rest, rfl⟩ := List.exists_cons_of_ne_nil hne
  simp only [Marked] at h
  simp [ofPiece?, parcels, Statement.isInsert, h, Function.comp_def]

end StatementGroup

namespace RecordGroup

variable {registry : Registry}

/-- Behind an open piece the calls are the cuts of the piece and of what follows. -/
theorem parcels_planAfter
    (batchSize : Nat) {pending : List (RequestId × Record)}
    (hknown : ∀ write ∈ pending, registry.contains write.2.root)
    (open_ : StatementGroup) (hopen : open_.waiting ≠ []) (hle : open_.size ≤ max batchSize 1) :
    (planAfter registry (max batchSize 1) pending ⟨[open_]⟩ (some open_.text) open_.size).calls.map
        StatementGroup.parcels =
      cuts batchSize (open_.parcels ++ pending.filterMap registry.parcel?) := by
  induction pending generalizing open_ with
  | nil =>
      rw [List.filterMap_nil, cuts_append (StatementGroup.parcels_ne_nil hopen)
        (fun _ => StatementGroup.text_of_mem_parcels) (by simpa using hle) (Or.inr (by simp))]
      rfl
  | cons write rest ih =>
      obtain ⟨id, record⟩ := write
      obtain ⟨statement, hbind, hparcel⟩ :=
        Registry.bind_of_contains (hknown (id, record) List.mem_cons_self)
      have hrest : ∀ write ∈ rest, registry.contains write.2.root :=
        fun write hmem => hknown write (List.mem_cons_of_mem _ hmem)
      simp only at hbind
      simp only [planAfter, hbind, List.filterMap_cons, hparcel, Option.any_some, bne_iff_ne]
      split
      · next hcut =>
        -- The piece is closed, and the write opens the next one.
        have hnext := ih hrest
          ⟨normalText statement.text, statement.isInsert, [⟨statement.params, some id⟩]⟩
          (by simp) (Nat.le_max_right _ _)
        have hclosed : open_.parcels.length = max batchSize 1 ∨
            ∀ first ∈ (statement.parcel (some id) :: rest.filterMap registry.parcel?).head?,
              first.statement.text ≠ open_.text := by
          rw [open_.length_parcels]
          refine hcut.imp_right (fun hother first hfirst => ?_)
          obtain rfl := Option.some.inj hfirst
          exact hother.symm
        rw [cuts_append (StatementGroup.parcels_ne_nil hopen)
          (fun _ => StatementGroup.text_of_mem_parcels) (by simpa using hle) hclosed]
        exact congrArg (open_.parcels :: ·) hnext
      · next hstay =>
        rw [not_or, not_not] at hstay
        have hadd : ((⟨[open_]⟩ : StatementBatch).append statement (some id)).2 =
            ⟨[open_.add ⟨statement.params, some id⟩]⟩ := by
          simp [StatementBatch.append, StatementBatch.place, hstay.2]
        have hsize : (open_.add ⟨statement.params, some id⟩).size = open_.size + 1 := by
          simp [StatementGroup.size, StatementGroup.add]
        have hnext := ih hrest (open_.add ⟨statement.params, some id⟩)
          (by simp [StatementGroup.add]) (by omega)
        rw [hsize] at hnext
        rw [hadd, ← hstay.2]
        simpa [StatementGroup.add, StatementGroup.parcels, Statement.parcel, Statement.normal,
          hstay.2] using hnext

/-- The calls of a group of known root types are the cuts of its writes. -/
theorem parcels_calls
    (batchSize : Nat) {group : RecordGroup}
    (hknown : ∀ write ∈ group.pending, registry.contains write.2.root) :
    (group.calls registry batchSize).map StatementGroup.parcels =
      cuts batchSize (group.parcels registry) := by
  unfold calls plan parcels
  cases hpending : group.pending with
  | nil => rfl
  | cons write rest =>
      obtain ⟨id, record⟩ := write
      rw [hpending] at hknown
      obtain ⟨statement, hbind, hparcel⟩ :=
        Registry.bind_of_contains (hknown (id, record) List.mem_cons_self)
      have hrest : ∀ write ∈ rest, registry.contains write.2.root :=
        fun write hmem => hknown write (List.mem_cons_of_mem _ hmem)
      have hroom : ¬(0 = max batchSize 1) := by omega
      simp only at hbind
      simp only [planAfter, hbind, List.filterMap_cons, hparcel, hroom, Option.any_none,
        Bool.false_eq_true, or_self, if_false]
      exact parcels_planAfter batchSize hrest
        ⟨normalText statement.text, statement.isInsert, [⟨statement.params, some id⟩]⟩
        (by simp) (Nat.le_max_right _ _)

/-- Neighbours with one text are sent by one call of their group, unless that call is full with the
first of them. -/
theorem neighbours_calls
    (batchSize : Nat) {group : RecordGroup}
    (hknown : ∀ write ∈ group.pending, registry.contains write.2.root)
    {before after : List Parcel} {first second : Parcel}
    (hparcels : group.parcels registry = before ++ first :: second :: after)
    (h : first.statement.text = second.statement.text) :
    Neighbours (max batchSize 1) first second
      ((group.calls registry batchSize).map StatementGroup.parcels) := by
  rw [parcels_calls batchSize hknown, hparcels]
  exact neighbours_cuts batchSize h before after

theorem calls_eq
    (batchSize : Nat) {group : RecordGroup}
    (hknown : ∀ write ∈ group.pending, registry.contains write.2.root) :
    group.calls registry batchSize =
      (cuts batchSize (group.parcels registry)).filterMap StatementGroup.ofPiece? := by
  have hwaiting := (plan_delivers batchSize hknown).waiting
  have hmarked := marked_planAfter registry (max batchSize 1) group.pending
    (List.forall_mem_nil _ : ∀ call ∈ StatementBatch.empty.groups, call.Marked) none 0
  rw [← parcels_calls batchSize hknown, List.filterMap_map]
  symm
  calc (group.calls registry batchSize).filterMap
          (StatementGroup.ofPiece? ∘ StatementGroup.parcels)
      = (group.calls registry batchSize).filterMap some := by
        refine List.filterMap_congr (fun call hmem => ?_)
        exact StatementGroup.ofPiece?_parcels (hwaiting call hmem) (hmarked call hmem)
    _ = group.calls registry batchSize := List.filterMap_some

end RecordGroup

/-! ## What is executed of a group of records -/

variable {σ : Type}

/-- The answers that a store gives to the calls of groups, one after the other, up to the first call
that it refuses. -/
def answers [Store σ] (fetch : Bool) : List StatementGroup → σ → List BatchResult
  | [], _ => []
  | group :: rest, store =>
      match Store.executeBatch group.text group.paramSets (fetch && group.isInsert) store with
      | (.ok answer, after) => answer :: answers fetch rest after
      | (.error _, _) => []

/-- Calls that are all accepted are answered one by one, and what they have executed is added up in
their order. -/
theorem totals_executeGroups [Store σ]
    {fetch : Bool} {groups : List StatementGroup} {done totals : Totals} {store : σ}
    (h : (executeGroups fetch groups done store).1 = .ok totals) :
    (answers fetch groups store).length = groups.length ∧
      totals = (List.zipWith StatementGroup.totals groups (answers fetch groups store)).foldl
        Totals.add done := by
  induction groups generalizing done store with
  | nil =>
      cases h
      exact ⟨rfl, rfl⟩
  | cons group rest ih =>
      rcases hcall : Store.executeBatch group.text group.paramSets (fetch && group.isInsert) store
        with ⟨e | answer, after⟩
      · simp only [executeGroups, hcall] at h
        cases h
      · simp only [executeGroups, hcall] at h
        obtain ⟨hlength, htotals⟩ := ih h
        simp only [answers, hcall, List.length_cons, hlength, List.zipWith_cons_cons,
          List.foldl_cons]
        exact ⟨trivial, htotals⟩

namespace RecordGroup

variable {registry : Registry}

theorem origins_parcels
    {group : RecordGroup} (hknown : ∀ write ∈ group.pending, registry.contains write.2.root) :
    (group.parcels registry).map Parcel.origin = group.pending.map (fun write => some write.1) := by
  unfold parcels
  obtain ⟨_, _, _, pending⟩ := group
  simp only at hknown ⊢
  induction pending with
  | nil => rfl
  | cons write rest ih =>
      obtain ⟨statement, -, hparcel⟩ := Registry.bind_of_contains (hknown write List.mem_cons_self)
      have hrest := ih (fun other hmem => hknown other (List.mem_cons_of_mem _ hmem))
      rw [List.filterMap_cons_some hparcel, List.map_cons, hrest, List.map_cons]
      rfl

/-- A group of records is executed in pieces over a store: the writes, bound in the order in which
they came, are sent by the given calls and no others. -/
structure ExecutedInPieces [Store σ] (registry : Registry) (batchSize : Nat) (fetch : Bool)
    (group : RecordGroup) (store : Watched σ) (calls : List StatementGroup) : Prop where
  /-- The parcels of the group carry the statements that its writes bind to, in normal form. -/
  bound : ∃ statements, group.bind registry = .ok statements ∧
    (group.parcels registry).map Parcel.statement = statements.map Statement.normal
  origins : (group.parcels registry).map Parcel.origin =
    group.pending.map (fun write => some write.1)
  /-- Each run of one text is cut into full pieces and a rest. -/
  greedy : ∀ run ∈ (group.parcels registry).splitBy Parcel.sameText,
    (pieces batchSize run).flatten = run ∧
      (∀ piece ∈ pieces batchSize run, 1 ≤ piece.length ∧ piece.length ≤ max batchSize 1) ∧
      ∀ piece ∈ (pieces batchSize run).dropLast, piece.length = max batchSize 1
  /-- Each call sends one of these pieces. -/
  cut : calls.map StatementGroup.parcels =
    ((group.parcels registry).splitBy Parcel.sameText).flatMap (pieces batchSize)
  /-- A call asks for generated keys if they are fetched and its text is an insert. -/
  marked : ∀ call ∈ calls, call.isInsert = isInsertText call.text
  arrival : calls.flatMap StatementGroup.parcels = group.parcels registry
  /-- The store sees these calls, one after the other. -/
  seen : (group.execute registry batchSize fetch .empty store).2.2.2.seen =
    store.seen ++ calls.map (fun call => ⟨call.call fetch, none⟩)
  /-- Each call is answered, and the result adds up what they have executed, in their order. -/
  result : (answers fetch calls store).length = calls.length ∧
    (group.execute registry batchSize fetch .empty store).1 =
      .ok ((List.zipWith StatementGroup.totals calls (answers fetch calls store)).foldl
        Totals.add {})

/-- Executing a group of known root types is making its calls.  Nothing waits in it afterwards, and
nothing is gathered, whatever the store answers. -/
theorem execute_eq [Store σ]
    {group : RecordGroup} (hknown : ∀ write ∈ group.pending, registry.contains write.2.root)
    (batchSize : Nat) (fetch : Bool) (store : σ) :
    group.execute registry batchSize fetch .empty store =
      ((executeGroups fetch (group.calls registry batchSize) {} store).1, group.drained, .empty,
        (executeGroups fetch (group.calls registry batchSize) {} store).2) := by
  have hplan := plan_delivers batchSize hknown
  simp only [execute, calls, hplan.refusal, hplan.gathered]
  rcases executeGroups fetch (group.plan registry batchSize .empty).calls {} store with
    ⟨e | totals, after⟩
  · rfl
  · rfl

/-- A group of known root types is executed in the pieces of its runs, whatever the batch size, and
nothing is left in it or gathered behind it; nor is it when the store refuses a call. -/
theorem executed_in_pieces [Store σ]
    {group : RecordGroup} (hknown : ∀ write ∈ group.pending, registry.contains write.2.root)
    (batchSize : Nat) (fetch : Bool) (store : Watched σ) :
    (Store.Obliging store.behind →
      ExecutedInPieces registry batchSize fetch group store
        ((cuts batchSize (group.parcels registry)).filterMap StatementGroup.ofPiece?)) ∧
      (group.execute registry batchSize fetch .empty store).2.1 = group.drained ∧
      (group.execute registry batchSize fetch .empty store).2.2.1 = .empty := by
  rw [← calls_eq batchSize hknown, execute_eq hknown]
  refine ⟨fun hstore => ?_, rfl, rfl⟩
  have hplan := plan_delivers batchSize hknown
  have hattempted := attempted_of_obliging fetch (group.calls registry batchSize) hstore.watched
  obtain ⟨totals, htotals⟩ :=
    executeGroups_of_obliging fetch (group.calls registry batchSize) {} hstore.watched
  exact {
    bound := exists_bind hknown
    origins := origins_parcels hknown
    greedy := fun run _ => ⟨flatten_pieces batchSize run, fun _ => length_of_mem_pieces,
      fun _ => length_of_mem_dropLast_pieces⟩
    cut := parcels_calls batchSize hknown
    marked := marked_planAfter registry (max batchSize 1) group.pending
      (List.forall_mem_nil _) none 0
    arrival := hplan.parcels
    seen := by
      rw [execute_eq hknown, executeGroups_seen, hattempted, List.map_map]
      rfl
    result := by
      obtain ⟨hlength, hsum⟩ := totals_executeGroups htotals
      rw [execute_eq hknown, htotals, ← hsum]
      exact ⟨hlength, rfl⟩ }

def alternating : RecordGroup where
  root := ⟨"a"⟩
  depth := 100
  sequence := 0
  pending :=
    [(⟨1⟩, .new ⟨"a"⟩ .insert), (⟨2⟩, .new ⟨"a"⟩ .insert), (⟨3⟩, .new ⟨"a"⟩ .insert),
      (⟨4⟩, .new ⟨"a"⟩ .delete), (⟨5⟩, .new ⟨"a"⟩ .insert)]

theorem executed_in_pieces_of_alternating :
    let registry := Registry.ofList [{ root := ⟨"a"⟩, table := "a" }]
    let store : Watched Memory := ⟨[], {}⟩
    (∀ write ∈ alternating.pending, registry.contains write.2.root) ∧
      Store.Obliging store.behind ∧
      ExecutedInPieces registry 2 true alternating store
        ((cuts 2 (alternating.parcels registry)).filterMap StatementGroup.ofPiece?) ∧
      (alternating.execute registry 2 true .empty store).2.2.2.seen.map
        (fun seen => (seen.call.text, seen.call.setCount?)) =
          [("insert into a () values ()", some 2), ("insert into a () values ()", some 1),
            ("delete from a where id = ?", some 1), ("insert into a () values ()", some 1)] := by
  intro registry store
  have hknown : ∀ write ∈ alternating.pending, registry.contains write.2.root := by decide
  have hstore : Store.Obliging store.behind := Memory.obliging rfl
  exact ⟨hknown, hstore, (executed_in_pieces hknown 2 true store).1 hstore, by decide⟩

end RecordGroup

end Cascade
