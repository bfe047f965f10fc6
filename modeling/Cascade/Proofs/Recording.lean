import Cascade.Proofs.Calls
import Cascade.Store.Memory

/-!
# Armed failures of the recording store

A failure that is armed at the `p`th statement from now on strikes there: the
record grows by the statements before it, whichever of them one call holds, and
the error counts those.
-/

namespace Cascade

open Json

namespace Memory

def log (m : Memory) : List Statement :=
  m.executed.map (fun entry => ⟨entry.text, entry.params⟩)

/-- No failure is armed at one of the next `count` statements. -/
def Spared (count : Nat) (m : Memory) : Prop :=
  ∀ p, 1 ≤ p → p ≤ count → m.failAt ≠ some (m.executed.length + p)

theorem Spared.mono {count fewer : Nat} {m : Memory} (h : m.Spared count) (hle : fewer ≤ count) :
    m.Spared fewer :=
  fun p hpos hp => h p hpos (Nat.le_trans hp hle)

theorem spared_of_armed {count p : Nat} {m : Memory}
    (hfail : m.failAt = some (m.executed.length + p)) (hlt : count < p) : m.Spared count := by
  intro q _ hq hsame
  rw [hfail, Option.some.injEq] at hsame
  omega

theorem Spared.step
    {k count : Nat} {m after : Memory} (h : m.Spared (k + count))
    (hlength : after.executed.length = m.executed.length + k) (hfail : after.failAt = m.failAt) :
    after.Spared count := by
  intro p hpos hp hsame
  apply h (k + p) (by omega) (by omega)
  rw [← hfail, hsame, hlength]
  congr 1
  omega

def recorded (entry : Executed) (m : Memory) : Memory :=
  { m with executed := m.executed ++ [entry] }

theorem record_of_spared {m : Memory} (h : m.Spared 1) (entry : Executed) :
    m.record entry = (.ok (), m.recorded entry) := by
  have hnot : m.failAt ≠ some (m.executed.length + 1) := h 1 (Nat.le_refl _) (Nat.le_refl _)
  simp [record, hnot, recorded]

/-- What is left of a call after its first statement, for a store that is spared there. -/
theorem executeSets_cons
    {m : Memory} (h : m.Spared 1) (text : String) (batch : Nat) (wanted : Bool)
    (params : List Datum) (rest : List (List Datum)) (done : BatchResult) :
    ∃ keys last, last.log = m.log ++ [⟨text, params⟩] ∧
      last.executed.length = m.executed.length + 1 ∧ last.failAt = m.failAt ∧
      executeSets text batch wanted (params :: rest) done m =
        executeSets text batch wanted rest ⟨done.rowCounts ++ [1], done.keys ++ keys⟩ last := by
  refine ⟨((m.recorded ⟨text, params, some batch⟩).issueKey wanted).1,
    ((m.recorded ⟨text, params, some batch⟩).issueKey wanted).2, ?_, ?_, ?_, ?_⟩
  · cases wanted <;> simp [issueKey, recorded, log]
  · cases wanted <;> simp [issueKey, recorded]
  · cases wanted <;> rfl
  · simp only [executeSets, record_of_spared h]

/-- A call that is spared is accepted, and the record grows by its statements. -/
theorem executeSets_of_spared
    (text : String) (batch : Nat) (wanted : Bool) (sets : List (List Datum)) (done : BatchResult)
    {m : Memory} (h : m.Spared sets.length) :
    ∃ answer after, executeSets text batch wanted sets done m = (.ok answer, after) ∧
      after.log = m.log ++ sets.map (fun params => ⟨text, params⟩) ∧
      after.executed.length = m.executed.length + sets.length ∧ after.failAt = m.failAt := by
  induction sets generalizing done m with
  | nil => exact ⟨done, m, rfl, by simp, rfl, rfl⟩
  | cons params rest ih =>
      rw [List.length_cons] at h
      obtain ⟨keys, last, hlastlog, hcount, harmed, hnext⟩ :=
        executeSets_cons (h.mono (by omega)) text batch wanted params rest done
      have hlast : last.Spared rest.length := (Nat.add_comm _ _ ▸ h).step hcount harmed
      obtain ⟨answer, after, hresult, hlog, hlength, hafter⟩ :=
        ih ⟨done.rowCounts ++ [1], done.keys ++ keys⟩ hlast
      refine ⟨answer, after, hnext.trans hresult, ?_, ?_, hafter.trans harmed⟩
      · simp [hlog, hlastlog]
      · rw [hlength, hcount, List.length_cons]
        omega

/-- A call in which a failure is armed is refused there, and the record grows by the statements
before. -/
theorem executeSets_of_armed
    (text : String) (batch : Nat) (wanted : Bool) (sets : List (List Datum)) (done : BatchResult)
    {m : Memory} {p : Nat} (hfail : m.failAt = some (m.executed.length + p))
    (hpos : 1 ≤ p) (hle : p ≤ sets.length) :
    ∃ message after,
      executeSets text batch wanted sets done m =
        (.error ⟨done.rowCounts.length + (p - 1), message⟩, after) ∧
      after.log =
        m.log ++ (sets.map (fun params => (⟨text, params⟩ : Statement))).take (p - 1) := by
  induction sets generalizing done m p with
  | nil =>
      rw [List.length_nil] at hle
      omega
  | cons params rest ih =>
      rw [List.length_cons] at hle
      by_cases hone : p = 1
      · subst hone
        refine ⟨refusal (m.executed.length + 1), { m with failAt := none }, ?_, by simp [log]⟩
        simp [executeSets, record, hfail]
      · obtain ⟨keys, last, hlastlog, hcount, harmed, hnext⟩ :=
          executeSets_cons (spared_of_armed hfail (by omega)) text batch wanted params rest done
        obtain ⟨q, rfl⟩ : ∃ q, p = q + 2 := ⟨p - 2, by omega⟩
        have hlast : last.failAt = some (last.executed.length + (q + 1)) := by
          rw [harmed, hfail, hcount]
          congr 1
          omega
        obtain ⟨message, after, hresult, hlog⟩ :=
          ih ⟨done.rowCounts ++ [1], done.keys ++ keys⟩ hlast (by omega) (by omega)
        refine ⟨message, after, ?_, by simp [hlog, hlastlog]⟩
        rw [hnext, hresult, List.length_append, List.length_singleton]
        congr 3
        omega

theorem executeBatch_of_spared
    (text : String) (sets : List (List Datum)) (fetch : Bool) {m : Memory}
    (h : m.Spared sets.length) :
    ∃ answer after, Store.executeBatch text sets fetch m = (.ok answer, after) ∧
      after.log = m.log ++ sets.map (fun params => ⟨text, params⟩) ∧
      after.executed.length = m.executed.length + sets.length ∧ after.failAt = m.failAt :=
  executeSets_of_spared text m.batchSizes.length (fetch && isInsertText text) sets ⟨[], []⟩
    (m := { m with batchSizes := m.batchSizes ++ [sets.length] }) h

theorem executeBatch_of_armed
    (text : String) (sets : List (List Datum)) (fetch : Bool) {m : Memory} {p : Nat}
    (hfail : m.failAt = some (m.executed.length + p)) (hpos : 1 ≤ p) (hle : p ≤ sets.length) :
    ∃ message after, Store.executeBatch text sets fetch m = (.error ⟨p - 1, message⟩, after) ∧
      after.log =
        m.log ++ (sets.map (fun params => (⟨text, params⟩ : Statement))).take (p - 1) := by
  obtain ⟨message, after, hresult, hlog⟩ :=
    executeSets_of_armed text m.batchSizes.length (fetch && isInsertText text) sets ⟨[], []⟩
      (m := { m with batchSizes := m.batchSizes ++ [sets.length] }) hfail hpos hle
  rw [List.length_nil, Nat.zero_add] at hresult
  exact ⟨message, after, hresult, hlog⟩

theorem spared_of_unarmed {m : Memory} (h : m.failAt = none) (count : Nat) : m.Spared count := by
  intro p _ _ hsame
  rw [h] at hsame
  cases hsame

/-- A store in which no failure is armed refuses no batch call. -/
theorem obliging {m : Memory} (h : m.failAt = none) : Store.Obliging m := by
  refine ⟨fun state => state.failAt = none, h, ?_⟩
  intro state hstate text sets fetch
  obtain ⟨answer, after, hresult, -, -, hafter⟩ :=
    executeBatch_of_spared text sets fetch (spared_of_unarmed hstate _)
  exact ⟨answer, after, hresult, hafter.trans hstate⟩

theorem length_paramSets (group : StatementGroup) : group.paramSets.length = group.size := by
  simp [StatementGroup.paramSets, StatementGroup.size]

/-- Calls that are spared are all accepted, and the record grows by their statements. -/
theorem executeGroups_of_spared
    (fetch : Bool) (groups : List StatementGroup) (done : Totals)
    {m : Memory} (h : m.Spared (sumOf (groups.map StatementGroup.size))) :
    ∃ totals after, executeGroups fetch groups done m = (.ok totals, after) ∧
      after.log = m.log ++ (groups.flatMap StatementGroup.parcels).map Parcel.statement ∧
      after.failAt = m.failAt := by
  induction groups generalizing done m with
  | nil => exact ⟨done, m, rfl, by simp, rfl⟩
  | cons group rest ih =>
      rw [List.map_cons, sumOf, ← length_paramSets group] at h
      obtain ⟨answer, next, hcall, hnext, hcount, harmed⟩ :=
        executeBatch_of_spared group.text group.paramSets (fetch && group.isInsert)
          (h.mono (by omega))
      obtain ⟨totals, after, hrest, hlog, hafter⟩ :=
        ih (done.add (group.totals answer)) (h.step hcount harmed)
      refine ⟨totals, after, ?_, ?_, hafter.trans harmed⟩
      · simp only [executeGroups, hcall, hrest]
      · rw [hlog, hnext, group.paramSets_eq, List.flatMap_cons, List.map_append,
          List.append_assoc]

/-- A failure that is armed at the `p`th statement of some calls strikes there, whichever call
holds that statement. -/
theorem executeGroups_of_armed
    (fetch : Bool) (groups : List StatementGroup) (done : Totals)
    {m : Memory} {p : Nat} (hfail : m.failAt = some (m.executed.length + p))
    (hpos : 1 ≤ p) (hle : p ≤ sumOf (groups.map StatementGroup.size)) :
    (∃ text message, (executeGroups fetch groups done m).1 =
        .error (.execution text (done.statements + (p - 1)) message)) ∧
      (executeGroups fetch groups done m).2.log = m.log ++
        ((groups.flatMap StatementGroup.parcels).map Parcel.statement).take (p - 1) := by
  induction groups generalizing done m p with
  | nil =>
      rw [List.map_nil, sumOf] at hle
      omega
  | cons group rest ih =>
      rw [List.map_cons, sumOf] at hle
      have hlength : group.paramSets.length = group.size := length_paramSets group
      have hparcels : (group.parcels.map Parcel.statement).length = group.size := by simp
      rw [List.flatMap_cons, List.map_append]
      by_cases hhere : p ≤ group.size
      · obtain ⟨message, after, hresult, hlog⟩ :=
          executeBatch_of_armed group.text group.paramSets (fetch && group.isInsert) hfail hpos
            (hlength.symm ▸ hhere)
        simp only [executeGroups, hresult]
        refine ⟨⟨group.text, message, rfl⟩, ?_⟩
        rw [hlog, group.paramSets_eq, List.take_append_of_le_length (by omega)]
      · obtain ⟨answer, after, hresult, hlog, hcount, harmed⟩ :=
          executeBatch_of_spared group.text group.paramSets (fetch && group.isInsert)
            (spared_of_armed hfail (by omega))
        have hafter : after.failAt = some (after.executed.length + (p - group.size)) := by
          rw [harmed, hfail, hcount, hlength]
          congr 1
          omega
        obtain ⟨⟨text, message, herror⟩, hrest⟩ :=
          ih (done.add (group.totals answer)) hafter (by omega) (by omega)
        simp only [executeGroups, hresult]
        constructor
        · refine ⟨text, message, herror.trans ?_⟩
          have hdone : (done.add (group.totals answer)).statements = done.statements + group.size :=
            rfl
          rw [hdone]
          congr 2
          omega
        · have hfront : (group.parcels.map Parcel.statement).take (p - 1) =
              group.parcels.map Parcel.statement :=
            List.take_of_length_le (by omega)
          have hleft : p - group.size - 1 = p - 1 - group.size := by omega
          rw [hrest, hlog, group.paramSets_eq, List.append_assoc, List.take_append, hparcels,
            hfront, hleft]

end Memory

end Cascade
