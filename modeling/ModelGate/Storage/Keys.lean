import Mathlib.Data.List.Nodup
import ModelGate.Data.Custody
import ModelGate.Storage.Usage

/-! Keys and references of the usage tables, with transactions in progress.

A key is unique among the rows of all transactions that may still commit, so a
commit has nothing left to check.
-/

set_option autoImplicit false

namespace ModelGate.Storage.Usage

open Data Numeric Semantics

variable {limits : Limits}

namespace Database

/-- The rows of everything that is or may still be committed. -/
def bundles (db : Database) : List Rows := db.visible ++ db.transactions.filterMap id

/-- No key is taken twice, also among transactions in progress. -/
structure Keyed (db : Database) : Prop where
  providers : (db.bundles.flatMap Rows.providers).Nodup
  requests : (db.bundles.flatMap Rows.requestIDs).Nodup
  usage : (db.bundles.flatMap Rows.usageIDs).Nodup
  references : ∀ rows ∈ db.bundles, ∀ row ∈ rows.requests,
    row.provider ∈ (rows :: db.visible).flatMap Rows.providers

variable {db : Database} {tx : Nat} {own : Rows}

theorem bundles_perm (located : db.transactions[tx]? = some (some own)) :
    db.bundles.Perm (own :: (db.visible ++ db.others tx)) := by
  obtain ⟨rest, before, after⟩ := filterMap_set_perm located id
  have others : (db.others tx).Perm rest := after none
  exact ((before.trans (others.symm.cons own)).append_left db.visible).trans List.perm_middle

theorem bundles_update (located : db.transactions[tx]? = some (some own)) (next : Option Rows) :
    (db.update tx next).bundles.Perm (next.toList ++ (db.visible ++ db.others tx)) := by
  obtain ⟨rest, -, after⟩ := filterMap_set_perm located id
  have others : (db.others tx).Perm rest := after none
  refine (((after next).trans (others.symm.append_left _)).append_left db.visible).trans ?_
  rw [← List.append_assoc, ← List.append_assoc]
  exact List.perm_append_comm.append_right _

theorem bundles_commit :
    (db.commit tx own).bundles.Perm (own :: (db.visible ++ db.others tx)) := by
  have seen : (db.commit tx own).visible = db.visible ++ [own] := by simp [visible, commit]
  rw [bundles, seen, List.append_assoc]
  exact List.perm_middle

theorem nodup_flatMap_perm {K : Type} {keys : Rows → List K} {first second : List Rows}
    (same : first.Perm second) : (first.flatMap keys).Nodup ↔ (second.flatMap keys).Nodup :=
  (same.flatMap_right keys).nodup_iff

theorem nodup_take {K : Type} {keys : Rows → List K}
    (located : db.transactions[tx]? = some (some own)) (before : (db.bundles.flatMap keys).Nodup)
    {next : Rows} {fresh : List K} (added : keys next = keys own ++ fresh) (once : fresh.Nodup)
    (absent : ∀ key ∈ fresh, key ∉ (own :: (db.visible ++ db.others tx)).flatMap keys) :
    ((db.update tx (some next)).bundles.flatMap keys).Nodup := by
  rw [nodup_flatMap_perm (bundles_perm located)] at before
  rw [nodup_flatMap_perm (bundles_update located (some next))]
  have extended : (fresh ++ (own :: (db.visible ++ db.others tx)).flatMap keys).Nodup :=
    List.Nodup.append once before fun key new old => absent key new old
  refine (List.Perm.nodup_iff ?_).mp extended
  simp only [Option.toList_some, List.singleton_append, List.flatMap_cons, added]
  rw [← List.append_assoc]
  exact List.perm_append_comm.append_right _

theorem nodup_drop {K : Type} {keys : Rows → List K}
    (located : db.transactions[tx]? = some (some own)) (before : (db.bundles.flatMap keys).Nodup) :
    ((db.update tx none).bundles.flatMap keys).Nodup := by
  rw [nodup_flatMap_perm (bundles_perm located), List.flatMap_cons] at before
  rw [nodup_flatMap_perm (bundles_update located none)]
  exact List.Nodup.of_append_right before

theorem nodup_commit {K : Type} {keys : Rows → List K}
    (located : db.transactions[tx]? = some (some own)) (before : (db.bundles.flatMap keys).Nodup) :
    ((db.commit tx own).bundles.flatMap keys).Nodup := by
  rw [nodup_flatMap_perm (bundles_perm located)] at before
  rwa [nodup_flatMap_perm bundles_commit]

theorem bundles_opened : db.opened.bundles = db.bundles ++ [Rows.empty] := by
  simp [bundles, opened, visible]

theorem nodup_opened {K : Type} {keys : Rows → List K} (none' : keys Rows.empty = [])
    (before : (db.bundles.flatMap keys).Nodup) : (db.opened.bundles.flatMap keys).Nodup := by
  rw [bundles_opened, List.flatMap_append, List.flatMap_singleton, none', List.append_nil]
  exact before

theorem Keyed.opens (keyed : db.Keyed) : db.opened.Keyed := by
  refine ⟨nodup_opened rfl keyed.providers, nodup_opened rfl keyed.requests,
    nodup_opened rfl keyed.usage, fun rows member => ?_⟩
  rw [bundles_opened] at member
  rcases List.mem_append.mp member with old | new
  · exact keyed.references rows old
  · obtain rfl := List.mem_singleton.mp new
    exact List.forall_mem_nil _

theorem visible_subset {rows : Rows} {name : String}
    (known : name ∈ (rows :: db.visible).flatMap Rows.providers) :
    name ∈ (rows :: (db.commit tx own).visible).flatMap Rows.providers := by
  have seen : (db.commit tx own).visible = db.visible ++ [own] := by simp [visible, commit]
  rw [seen, ← List.cons_append, List.flatMap_append]
  exact List.mem_append_left _ known

section Located

variable (located : db.transactions[tx]? = some (some own)) (keyed : db.Keyed)
include located keyed

theorem Keyed.drops : (db.update tx none).Keyed := by
  refine ⟨nodup_drop located keyed.providers, nodup_drop located keyed.requests,
    nodup_drop located keyed.usage, fun rows member => ?_⟩
  have among := (bundles_update located none).mem_iff.mp member
  exact keyed.references rows ((bundles_perm located).mem_iff.mpr (List.mem_cons_of_mem _ among))

theorem Keyed.commits : (db.commit tx own).Keyed := by
  refine ⟨nodup_commit located keyed.providers, nodup_commit located keyed.requests,
    nodup_commit located keyed.usage, fun rows member row inside => ?_⟩
  have among := (bundles_perm located).mem_iff.mpr (bundles_commit.mem_iff.mp member)
  exact visible_subset (keyed.references rows among row inside)

end Located

/-- What a statement that is taken adds to the rows of its transaction. -/
structure Adds (db : Database) (tx : Nat) (own next : Rows) (providers : List String)
    (requests : List RequestRow) (usage : List UsageRow) : Prop where
  rows : next = ⟨own.providers ++ providers, own.requests ++ requests, own.usage ++ usage⟩
  single : providers.length ≤ 1 ∧ requests.length ≤ 1 ∧ usage.length ≤ 1
  newProviders : ∀ name ∈ providers, name ∉ (own :: (db.visible ++ db.others tx)).flatMap
    Rows.providers
  newRequests : ∀ row ∈ requests, row.id ∉ (own :: (db.visible ++ db.others tx)).flatMap
    Rows.requestIDs
  newUsage : ∀ row ∈ usage, row.requestID ∉ (own :: (db.visible ++ db.others tx)).flatMap
    Rows.usageIDs
  known : ∀ row ∈ requests, row.provider ∈ (own :: db.visible).flatMap Rows.providers

theorem sees_iff {K : Type} [DecidableEq K] {keys : Rows → List K} {key : K} :
    db.sees own keys key = true ↔ key ∈ (own :: db.visible).flatMap keys :=
  decide_eq_true_iff

theorem absent_of_presence {K : Type} [DecidableEq K] {keys : Rows → List K} {key : K}
    (absent : db.presence tx own keys key = .absent) :
    key ∉ (own :: (db.visible ++ db.others tx)).flatMap keys := by
  unfold presence at absent
  split at absent
  · cases absent
  · split at absent
    · cases absent
    · rename_i seen waiting
      rw [← List.cons_append, List.flatMap_append, List.mem_append]
      exact not_or.mpr ⟨sees_iff.not.mp seen, waiting⟩

theorem present_of_presence {K : Type} [DecidableEq K] {keys : Rows → List K} {key : K}
    (present : db.presence tx own keys key = .present) :
    key ∈ (own :: db.visible).flatMap keys := by
  unfold presence at present
  split at present
  · rename_i seen
    exact sees_iff.mp seen
  · split at present <;> cases present

theorem pending_of_presence {K : Type} [DecidableEq K] {keys : Rows → List K} {key : K}
    (pending : db.presence tx own keys key = .pending) :
    ∃ rows ∈ db.others tx, key ∈ keys rows := by
  unfold presence at pending
  split at pending
  · cases pending
  · split at pending
    · rename_i waiting
      exact List.mem_flatMap.mp waiting
    · cases pending

theorem nodup_of_single {K : Type} {items : List K} (single : items.length ≤ 1) : items.Nodup := by
  match items, single with
  | [], _ => exact List.nodup_nil
  | [item], _ => exact List.nodup_singleton item

theorem Keyed.takes (located : db.transactions[tx]? = some (some own)) (keyed : db.Keyed)
    {next : Rows} {providers : List String} {requests : List RequestRow} {usage : List UsageRow}
    (adds : db.Adds tx own next providers requests usage) : (db.update tx (some next)).Keyed := by
  obtain ⟨rfl, ⟨one, two, three⟩, newProviders, newRequests, newUsage, known⟩ := adds
  refine ⟨nodup_take located keyed.providers rfl (nodup_of_single one) newProviders, ?_, ?_,
    fun rows member => ?_⟩
  · refine nodup_take located keyed.requests (List.map_append ..)
      (nodup_of_single (by simpa using two)) ?_
    intro key new
    obtain ⟨row, inside, rfl⟩ := List.mem_map.mp new
    exact newRequests row inside
  · refine nodup_take located keyed.usage (List.map_append ..)
      (nodup_of_single (by simpa using three)) ?_
    intro key new
    obtain ⟨row, inside, rfl⟩ := List.mem_map.mp new
    exact newUsage row inside
  · rcases List.mem_cons.mp ((bundles_update located _).mem_iff.mp member) with rfl | other
    · -- The rows it had refer to what they referred to before.
      have grows {name : String} (among : name ∈ (own :: db.visible).flatMap Rows.providers) :
          name ∈ (own.providers ++ providers) ++ db.visible.flatMap Rows.providers := by
        rw [List.flatMap_cons, List.mem_append] at among
        simp only [List.mem_append]
        tauto
      intro row inside
      rcases List.mem_append.mp inside with old | new
      · exact grows (keyed.references own
          ((bundles_perm located).mem_iff.mpr List.mem_cons_self) row old)
      · exact grows (known row new)
    · exact keyed.references rows
        ((bundles_perm located).mem_iff.mpr (List.mem_cons_of_mem _ other))

/-- A statement is taken for new keys only, and for references that exist. -/
theorem adds_of_judge {statement : Statement} {count : Nat}
    (judged : db.judge limits tx own statement = .takes count) :
    ∃ providers requests usage, db.Adds tx own (statement.insert limits count own) providers
      requests usage := by
  cases statement with
  | ensureProvider name =>
      simp only [judge] at judged
      split at judged
      · cases judged
      · split at judged
        · cases judged
          -- A row that is there already is left alone by `ON CONFLICT DO NOTHING`.
          exact ⟨[], [], [],
            ⟨by simp [Statement.insert], by simp, by simp, by simp, by simp, by simp⟩⟩
        · cases judged
        · rename_i absent
          cases judged
          refine ⟨[name], [], [],
            ⟨by simp [Statement.insert], by simp, ?_, by simp, by simp, by simp⟩⟩
          rw [List.forall_mem_singleton]
          exact absent_of_presence absent
  | insertRequest id provider model status latencyMs cacheStatus errorCode createdAt =>
      simp only [judge] at judged
      split at judged
      · cases judged
      · rename_i row accepted
        split at judged
        · cases judged
        · cases judged
        · rename_i absent
          split at judged
          · rename_i known
            refine ⟨[], [row], [], ⟨?_, by simp, by simp, ?_, by simp, ?_⟩⟩
            · simp only [Statement.insert, accepted, Option.toList_some, List.append_nil]
            · rw [List.forall_mem_singleton]
              exact absent_of_presence absent
            · rw [List.forall_mem_singleton]
              exact sees_iff.mp known
          · cases judged
  | insertUsage requestID inputTokens outputTokens totalTokens estimatedCost createdAt =>
      simp only [judge] at judged
      split at judged
      · cases judged
      · rename_i row accepted
        split at judged
        · cases judged
        · cases judged
        · rename_i absent
          split at judged
          · refine ⟨[], [], [row], ⟨?_, by simp, by simp, by simp, ?_, by simp⟩⟩
            · simp only [Statement.insert, accepted, Option.toList_some, List.append_nil]
            · rw [List.forall_mem_singleton]
              exact absent_of_presence absent
          · cases judged

end Database

end ModelGate.Storage.Usage
