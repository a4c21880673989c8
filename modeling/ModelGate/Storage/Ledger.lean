import ModelGate.Storage.Calls

/-! Any number of `Record` calls at once on one database.

The calls are interleaved by their statements. The rows of a transaction in
progress belong to the one call that began it, and what is committed is what
calls committed.
-/

set_option autoImplicit false

namespace ModelGate.Storage.Usage

open Data Numeric Semantics

variable {limits : Limits} {faulty : Bool}

namespace Progress

/-- The transaction of a call, with its rows while it is in progress. -/
def claim (progress : Progress) : Option (Nat × Option Rows) :=
  match progress.stage with
  | .idle => none
  | .working tx rows _ => some (tx, some rows)
  | .refused tx => some (tx, none)
  | .committed tx _ _ => some (tx, none)

structure Working (limits : Limits) (visible : List Rows) (progress : Progress) (rows : Rows)
    (finished : Nat) : Prop where
  complete : progress.record.Complete
  within : finished ≤ 3
  shape : ∃ createdAt, progress.createdAt = some createdAt ∧
    Shape limits progress.record createdAt finished rows
  known : 0 < finished → progress.record.provider ∈ (rows :: visible).flatMap Rows.providers

/-- The rows of a call are those of its record, and without a fault a refusal has a reason. -/
def Sound (limits : Limits) (faulty : Bool) (visible : List Rows) (progress : Progress) : Prop :=
  match progress.stage with
  | .idle => True
  | .working _ rows finished => progress.Working limits visible rows finished
  | .refused _ => faulty = false → ¬progress.record.Storable limits ∨ Taken visible progress.record
  | .committed _ rows _ =>
      ∃ createdAt, progress.createdAt = some createdAt ∧
        Shape limits progress.record createdAt 3 rows

theorem mem_flatMap_of_subset {K : Type} {keys : Rows → List K} {visible later : List Rows}
    (seen : visible ⊆ later) {key : K} (member : key ∈ visible.flatMap keys) :
    key ∈ later.flatMap keys := by
  obtain ⟨rows, among, inside⟩ := List.mem_flatMap.mp member
  exact List.mem_flatMap.mpr ⟨rows, seen among, inside⟩

theorem Sound.mono {visible later : List Rows} {progress : Progress}
    (sound : progress.Sound limits faulty visible) (seen : visible ⊆ later) :
    progress.Sound limits faulty later := by
  unfold Sound at sound ⊢
  split at sound
  · trivial
  · exact ⟨sound.complete, sound.within, sound.shape,
      fun started => mem_flatMap_of_subset (List.cons_subset_cons _ seen) (sound.known started)⟩
  · refine fun safe => (sound safe).imp_right fun ⟨uuid, parsed, taken⟩ => ?_
    exact ⟨uuid, parsed, mem_flatMap_of_subset seen taken⟩
  · exact sound

end Progress

/-- Every transaction has one call, and what is committed is what calls committed. -/
structure Tracked (limits : Limits) (faulty : Bool) (db : Database) (all : List Progress) :
    Prop where
  custody : Custody (all.filterMap Progress.claim) db.transactions
  sound : ∀ progress ∈ all, progress.Sound limits faulty db.visible
  stored : ∀ progress ∈ all, ∀ tx rows, progress.stage = .committed tx rows false →
    (tx, rows) ∈ db.commits
  origin : ∀ commit ∈ db.commits, ∃ progress ∈ all, ∃ failed, progress.stage =
    .committed commit.1 commit.2 failed
  once : (db.commits.map Prod.fst).Nodup

theorem mem_set_of_ne {β : Type} {items : List β} {index : Nat} {item other : β}
    (found : items[index]? = some item) (member : other ∈ items) (different : other ≠ item)
    (next : β) : other ∈ items.set index next := by
  obtain ⟨before, after, rfl, rfl, changed⟩ := split_at found
  rw [changed]
  simp only [List.mem_append, List.mem_cons] at member ⊢
  tauto

namespace Tracked

variable {db next : Database} {all : List Progress} {index : Nat} {progress later : Progress}

theorem replace (tracked : Tracked limits faulty db all) (found : all[index]? = some progress)
    (custody : Custody ((all.set index later).filterMap Progress.claim) next.transactions)
    (sound : later.Sound limits faulty next.visible) (base : next.base = db.base)
    (kept : db.commits ⊆ next.commits)
    (stored : ∀ tx rows, later.stage = .committed tx rows false → (tx, rows) ∈ next.commits)
    (origin : ∀ commit ∈ next.commits,
      (∃ failed, later.stage = .committed commit.1 commit.2 failed) ∨ commit ∈ db.commits ∧
      ∀ failed, progress.stage ≠ .committed commit.1 commit.2 failed)
    (once : (next.commits.map Prod.fst).Nodup) :
    Tracked limits faulty next (all.set index later) := by
  have seen : db.visible ⊆ next.visible := by
    rw [Database.visible, Database.visible, base]
    exact List.cons_subset_cons _ (List.map_subset _ kept)
  refine ⟨custody, fun other member => ?_, fun other member tx rows stage => ?_,
    fun commit member => ?_, once⟩
  · rcases List.mem_or_eq_of_mem_set member with old | rfl
    · exact (tracked.sound other old).mono seen
    · exact sound
  · rcases List.mem_or_eq_of_mem_set member with old | rfl
    · exact kept (tracked.stored other old tx rows stage)
    · exact stored tx rows stage
  · rcases origin commit member with ⟨failed, own⟩ | ⟨old, others⟩
    · exact ⟨later, List.mem_set (List.getElem?_eq_some_iff.mp found).1 later, failed, own⟩
    · obtain ⟨source, among, failed, stage⟩ := tracked.origin commit old
      have different : source ≠ progress := by
        rintro rfl
        exact others failed stage
      exact ⟨source, mem_set_of_ne found among different later, failed, stage⟩

theorem quiet (tracked : Tracked limits faulty db all) (found : all[index]? = some progress)
    (same : later.stage = progress.stage) (sound : later.Sound limits faulty db.visible) :
    Tracked limits faulty db (all.set index later) := by
  have claims : later.claim = progress.claim := by rw [Progress.claim, Progress.claim, same]
  refine tracked.replace found (tracked.custody.holder_keeps found claims) sound rfl
    (List.Subset.refl _) ?_ ?_ tracked.once
  · intro tx rows stage
    exact tracked.stored progress (List.mem_of_getElem? found) tx rows (same ▸ stage)
  · intro commit member
    by_cases own : ∃ failed, progress.stage = .committed commit.1 commit.2 failed
    · exact .inl (own.imp fun failed stage => same.trans stage)
    · exact .inr ⟨member, not_exists.mp own⟩

theorem spawn (tracked : Tracked limits faulty db all) (record : RequestRecord) :
    Tracked limits faulty db (all ++ [.first record]) := by
  refine ⟨?_, ?_, ?_, ?_, tracked.once⟩
  · rw [List.filterMap_append]
    exact tracked.custody.perm
      (by rw [List.filterMap_cons_none rfl, List.filterMap_nil, List.append_nil])
  · intro other member
    rcases List.mem_append.mp member with old | new
    · exact tracked.sound other old
    · obtain rfl := List.mem_singleton.mp new
      exact trivial
  · intro other member tx rows stage
    rcases List.mem_append.mp member with old | new
    · exact tracked.stored other old tx rows stage
    · obtain rfl := List.mem_singleton.mp new
      cases stage
  · intro commit member
    obtain ⟨source, among, rest⟩ := tracked.origin commit member
    exact ⟨source, List.mem_append_left _ among, rest⟩

theorem begin (tracked : Tracked limits faulty db all) (found : all[index]? = some progress)
    (idle : progress.stage = .idle) (complete : progress.record.Complete) {createdAt : Int}
    (time : progress.createdAt = some createdAt) :
    Tracked limits faulty db.opened
      (all.set index (progress.reach (.working db.transactions.length .empty 0))) := by
  have free : progress.claim = none := by rw [Progress.claim, idle]
  refine tracked.replace found ?_ ?_ rfl (List.Subset.refl _) (fun _ _ => nofun)
    (fun commit member => .inr ⟨member, ?_⟩) tracked.once
  · exact tracked.custody.holder_opens found free rfl
  · exact ⟨complete, Nat.zero_le 3, ⟨createdAt, time, shape_empty limits progress.record createdAt⟩,
      nofun⟩
  · intro failed stage
    rw [idle] at stage
    cases stage

section Working

variable {tx finished : Nat} {rows : Rows} (tracked : Tracked limits faulty db all)
  (found : all[index]? = some progress) (working : progress.stage = .working tx rows finished)
include tracked found working

theorem located : db.transactions[tx]? = some (some rows) := by
  have member := List.mem_of_getElem? found
  refine tracked.custody.agrees (List.mem_filterMap.mpr ⟨progress, member, ?_⟩)
  rw [Progress.claim, working]

theorem facts : progress.Working limits db.visible rows finished := by
  have sound := tracked.sound progress (List.mem_of_getElem? found)
  rwa [Progress.Sound, working] at sound

theorem custody_set {value : Option Rows} (claims : later.claim = some (tx, value)) :
    Custody ((all.set index later).filterMap Progress.claim) (db.transactions.set tx value) := by
  have own : progress.claim = some (tx, some rows) := by rw [Progress.claim, working]
  exact tracked.custody.holder_changes found own claims

theorem proceed {value : Option Rows} (claims : later.claim = some (tx, value))
    (sound : later.Sound limits faulty db.visible)
    (uncommitted : ∀ tx rows, later.stage ≠ .committed tx rows false) :
    Tracked limits faulty (db.update tx value) (all.set index later) := by
  refine tracked.replace found (tracked.custody_set found working claims) sound rfl
    (List.Subset.refl _) (fun tx rows stage => absurd stage (uncommitted tx rows))
    (fun commit member => .inr ⟨member, ?_⟩) tracked.once
  intro failed stage
  rw [working] at stage
  cases stage

theorem uncommitted : tx ∉ db.commits.map Prod.fst := by
  intro member
  obtain ⟨commit, among, rfl⟩ := List.mem_map.mp member
  obtain ⟨source, inside, failed, stage⟩ := tracked.origin commit among
  have ended : db.transactions[commit.1]? = some none := by
    refine tracked.custody.agrees (List.mem_filterMap.mpr ⟨source, inside, ?_⟩)
    rw [Progress.claim, stage]
  rw [tracked.located found working] at ended
  cases ended

theorem commit {failed : Bool} (stage : later.stage = .committed tx rows failed)
    (sound : later.Sound limits faulty (db.commit tx rows).visible) :
    Tracked limits faulty (db.commit tx rows) (all.set index later) := by
  refine tracked.replace found (tracked.custody_set found working (by rw [Progress.claim, stage]))
    sound rfl (List.subset_append_left _ _) ?_ ?_ ?_
  · intro number stored same
    rw [stage] at same
    cases same
    exact List.mem_append_right _ (List.mem_singleton.mpr rfl)
  · intro commit member
    rcases List.mem_append.mp member with old | new
    · refine .inr ⟨old, fun failed same => ?_⟩
      rw [working] at same
      cases same
    · obtain rfl := List.mem_singleton.mp new
      exact .inl ⟨failed, stage⟩
  · have fresh := tracked.uncommitted found working
    have extended : ((db.commits.map Prod.fst) ++ [tx]).Nodup :=
      List.Nodup.append tracked.once (List.nodup_singleton tx) (by simpa using fresh)
    simpa [Database.commit] using extended

end Working

end Tracked

structure Balanced (limits : Limits) (faulty : Bool) (db : Database) (all : List Progress) :
    Prop where
  keyed : db.Keyed
  tracked : Tracked limits faulty db all
  paired : ∀ rows ∈ db.visible, rows.usageIDs.Perm rows.requestIDs

namespace Balanced

variable {db next : Database} {all : List Progress} {index : Nat} {progress : Progress}

theorem rollback (balanced : Balanced limits faulty db all) (member : progress ∈ all) {tx : Nat}
    (ended : progress.claim = some (tx, none)) : db.update tx none = db := by
  have closed := balanced.tracked.custody.agrees (List.mem_filterMap.mpr ⟨progress, member, ended⟩)
  rw [Database.update, set_of_getElem? closed]

section Working

variable {tx finished : Nat} {rows : Rows} (balanced : Balanced limits faulty db all)
  (found : all[index]? = some progress) (working : progress.stage = .working tx rows finished)
include balanced found working

theorem own_fresh {key : Bytes} (own : key ∈ rows.requestIDs) :
    key ∉ db.visible.flatMap Rows.usageIDs := by
  intro taken
  obtain ⟨other, among, inside⟩ := List.mem_flatMap.mp taken
  have request := (balanced.paired other among).mem_iff.mp inside
  have keys := balanced.keyed.requests
  rw [Database.nodup_flatMap_perm (Database.bundles_perm (balanced.tracked.located found working)),
    List.flatMap_cons] at keys
  refine List.disjoint_of_nodup_append keys own ?_
  exact List.mem_flatMap.mpr ⟨other, List.mem_append_left _ among, request⟩

/-- A statement is refused for a value of its record or for a row that is there. -/
theorem explained {createdAt : Int} {statement : Statement} {err : Err}
    (time : progress.createdAt = some createdAt)
    (planned : progress.record.statement createdAt finished = some statement)
    (judged : db.judge limits tx rows statement = .refuses err) :
    ¬progress.record.Storable limits ∨ Taken db.visible progress.record := by
  have facts := balanced.tracked.facts found working
  obtain ⟨other, same, shape⟩ := facts.shape
  obtain rfl : other = createdAt := Option.some.inj (same.symm.trans time)
  rcases statement_cases planned with ⟨rfl, rfl⟩ | ⟨rfl, rfl⟩ | ⟨rfl, rfl⟩
  -- The provider: its name is no text, or its index row is too long.
  · simp only [RequestRecord.ensureProvider, Database.judge] at judged
    split at judged
    · rename_i unfit
      refine .inl fun fits => ?_
      rw [fits.texts _ List.mem_cons_self, fits.indexed.1] at unfit
      cases unfit
    · split at judged <;> cases judged
  -- The request: its values or its key. The first statement has made its provider known.
  · have none' : rows.requests = [] := shape.no_requests (by decide)
    simp only [RequestRecord.insertRequest, Database.judge] at judged
    split at judged
    · rename_i unfit
      refine .inl fun fits => ?_
      obtain ⟨row, accepted⟩ := requestRow_of_storable other facts.complete fits
      cases unfit.symm.trans accepted
    · rename_i row accepted
      obtain ⟨parsed, provider, -⟩ := requestRow_fields accepted
      split at judged
      · rename_i present
        refine .inr ⟨row.id, parsed, ?_⟩
        have among := Database.present_of_presence present
        rw [List.flatMap_cons, Rows.requestIDs, none'] at among
        exact among
      · cases judged
      · split at judged
        · cases judged
        · rename_i unknown
          rw [provider, Database.sees_iff] at unknown
          exact absurd (facts.known (by decide)) unknown
  -- The usage: its values. Its key is that of the request just inserted, so no other row has it.
  · obtain ⟨row, accepted, only, -⟩ :=
      shape.requests.resolve_left fun early => absurd early.2 (by decide)
    have none' : rows.usage = [] := shape.no_usage (by decide)
    simp only [RequestRecord.insertUsage, Database.judge] at judged
    split at judged
    · rename_i unfit
      refine .inl fun fits => ?_
      obtain ⟨usage, taken⟩ := usageRow_of_storable other facts.complete fits
      cases unfit.symm.trans taken
    · rename_i usage taken
      obtain ⟨again, -⟩ := usageRow_fields taken
      have own : usage.requestID ∈ rows.requestIDs := by
        obtain ⟨parsed, -⟩ := requestRow_fields accepted
        rw [Rows.requestIDs, only, Option.some.inj (again.symm.trans parsed)]
        exact List.mem_singleton.mpr rfl
      split at judged
      · rename_i present
        have among := Database.present_of_presence present
        rw [List.flatMap_cons, Rows.usageIDs, none'] at among
        exact absurd among (balanced.own_fresh found working own)
      · cases judged
      · split at judged
        · cases judged
        · rename_i unknown
          rw [Database.sees_iff] at unknown
          exact absurd (List.mem_flatMap.mpr ⟨rows, List.mem_cons_self, own⟩) unknown

theorem refuse (reason : faulty = false → ¬progress.record.Storable limits ∨
      Taken db.visible progress.record) :
    Balanced limits faulty (db.update tx none) (all.set index (progress.reach (.refused tx))) :=
  ⟨balanced.keyed.drops (balanced.tracked.located found working),
    balanced.tracked.proceed found working rfl reason (fun _ _ stage => by cases stage),
    balanced.paired⟩

theorem provider_known {createdAt : Int} {statement : Statement} {count : Nat}
    (planned : progress.record.statement createdAt finished = some statement)
    (judged : db.judge limits tx rows statement = .takes count) :
    progress.record.provider ∈ (statement.insert limits count rows :: db.visible).flatMap
      Rows.providers := by
  have facts := balanced.tracked.facts found working
  rcases statement_cases planned with ⟨rfl, rfl⟩ | ⟨rfl, rfl⟩ | ⟨rfl, rfl⟩
  · simp only [RequestRecord.ensureProvider, Database.judge] at judged
    split at judged
    · cases judged
    · split at judged
      · rename_i present
        cases judged
        exact Database.present_of_presence present
      · cases judged
      · cases judged
        simp [RequestRecord.ensureProvider, Statement.insert]
  · exact facts.known (by decide)
  · exact facts.known (by decide)

theorem take {createdAt : Int} {statement : Statement} {count : Nat}
    (time : progress.createdAt = some createdAt)
    (planned : progress.record.statement createdAt finished = some statement)
    (judged : db.judge limits tx rows statement = .takes count) :
    Balanced limits faulty (db.update tx (some (statement.insert limits count rows)))
      (all.set index (progress.reach
          (.working tx (statement.insert limits count rows) (finished + 1)))) := by
  have facts := balanced.tracked.facts found working
  obtain ⟨other, same, shape⟩ := facts.shape
  obtain rfl : other = createdAt := Option.some.inj (same.symm.trans time)
  obtain ⟨providers, requests, usage, adds⟩ := Database.adds_of_judge judged
  have within : finished + 1 ≤ 3 := by
    rcases statement_cases planned with ⟨rfl, -⟩ | ⟨rfl, -⟩ | ⟨rfl, -⟩ <;> decide
  refine ⟨balanced.keyed.takes (balanced.tracked.located found working) adds,
    balanced.tracked.proceed found working rfl ?_ (fun _ _ stage => by cases stage),
    balanced.paired⟩
  exact ⟨facts.complete, within, ⟨other, time, shape.next planned judged⟩,
    fun _ => balanced.provider_known found working planned judged⟩

end Working

section Finished

variable {tx : Nat} {rows : Rows} (balanced : Balanced limits faulty db all)
  (found : all[index]? = some progress) (working : progress.stage = .working tx rows 3)
include balanced found working

theorem commit (failed : Bool) :
    Balanced limits faulty (db.commit tx rows)
      (all.set index (progress.reach (.committed tx rows failed))) := by
  have facts := balanced.tracked.facts found working
  refine ⟨balanced.keyed.commits (balanced.tracked.located found working),
    balanced.tracked.commit found working rfl facts.shape, fun other member => ?_⟩
  have seen : (db.commit tx rows).visible = db.visible ++ [rows] := by
    simp [Database.visible, Database.commit]
  rw [seen] at member
  rcases List.mem_append.mp member with old | new
  · exact balanced.paired other old
  · obtain rfl := List.mem_singleton.mp new
    obtain ⟨createdAt, -, shape⟩ := facts.shape
    rw [shape.ids]

theorem lose : Balanced limits faulty (db.update tx none)
    (all.set index (progress.reach (.committed tx rows true))) :=
  ⟨balanced.keyed.drops (balanced.tracked.located found working),
    balanced.tracked.proceed found working rfl (balanced.tracked.facts found working).shape
    (fun _ _ stage => by cases stage), balanced.paired⟩

end Finished

section Steps

variable (balanced : Balanced limits faulty db all) (found : all[index]? = some progress)
include balanced found

theorem quiet {later : Progress} (same : later.stage = progress.stage)
    (sound : later.Sound limits faulty db.visible) :
    Balanced limits faulty db (all.set index later) :=
  ⟨balanced.keyed, balanced.tracked.quiet found same sound, balanced.paired⟩

theorem exec {tx : Nat} {statement : Statement} {reply : Except Err Nat}
    (allowed : progress.May (.exec tx statement))
    (handled : Granted limits db (.exec tx statement) reply next ∨ faulty = true ∧
      Faulty db (.exec tx statement) reply next) :
    Balanced limits faulty next
      (all.set index (progress.after limits (.exec tx statement) reply)) := by
  obtain ⟨rows, finished, createdAt, working, time, planned⟩ := allowed
  have located := balanced.tracked.located found working
  rcases handled with ⟨own, there, judged⟩ | ⟨broken, err, rfl, rfl⟩
  · obtain rfl : own = rows := Option.some.inj (Option.some.inj (there.symm.trans located))
    split at judged
    · rename_i count takes
      obtain ⟨rfl, rfl⟩ := judged
      have moved : progress.after limits (.exec tx statement) (.ok count) =
          progress.reach (.working tx (statement.insert limits count own) (finished + 1)) := by
        simp only [Progress.after, working]
      rw [moved]
      exact balanced.take found working time planned takes
    · rename_i err refuses
      obtain ⟨rfl, rfl⟩ := judged
      exact balanced.refuse found working fun _ =>
        balanced.explained found working time planned refuses
    · exact judged.elim
  · exact balanced.refuse found working fun sound => by rw [sound] at broken; cases broken

theorem finish {tx : Nat} {reply : Option Err} (allowed : progress.May (.commit tx))
    (handled : Granted limits db (.commit tx) reply next ∨ faulty = true ∧
      Faulty db (.commit tx) reply next) :
    Balanced limits faulty next (all.set index (progress.after limits (.commit tx) reply)) := by
  obtain ⟨rows, working⟩ := allowed
  have located := balanced.tracked.located found working
  have moved : progress.after limits (.commit tx) reply =
      progress.reach (.committed tx rows reply.isSome) := by
    simp only [Progress.after, working]
  rw [moved]
  rcases handled with ⟨own, there, rfl, rfl⟩ | ⟨-, err, own, there, rfl, lost⟩ <;>
    obtain rfl : own = rows := Option.some.inj (Option.some.inj (there.symm.trans located))
  · exact balanced.commit found working false
  · rcases lost with rfl | rfl
    · exact balanced.lose found working
    · exact balanced.commit found working true

theorem perform {op : Effect} {reply : effects.Reply op} (allowed : progress.May op)
    (handled : Granted limits db op reply next ∨ faulty = true ∧ Faulty db op reply next) :
    (storing limits faulty).answers progress op reply ∧
      Balanced limits faulty next (all.set index (progress.after limits op reply)) := by
  have soundness := balanced.tracked.sound progress (List.mem_of_getElem? found)
  cases op with
  | now =>
      obtain rfl : next = db := handled.resolve_right And.right
      refine ⟨trivial, balanced.quiet found rfl ?_⟩
      simp only [Progress.Sound, Progress.after, allowed.1]
  | begin =>
      obtain ⟨idle, complete, createdAt, time⟩ := allowed
      rcases handled with ⟨rfl, rfl⟩ | ⟨broken, err, rfl, rfl⟩
      · exact ⟨trivial, balanced.keyed.opens, balanced.tracked.begin found idle complete time,
          balanced.paired⟩
      · exact ⟨broken, balanced.quiet found rfl soundness⟩
  | exec tx statement => exact ⟨trivial, balanced.exec found allowed handled⟩
  | commit tx =>
      refine ⟨?_, balanced.finish found allowed handled⟩
      rcases handled with ⟨own, there, rfl, rfl⟩ | ⟨broken, err, own, there, rfl, lost⟩
      · exact trivial
      · exact broken
  | rollback tx =>
      have ended : progress.claim = some (tx, none) := by
        rcases allowed with stage | ⟨rows, failed, stage⟩ <;> rw [Progress.claim, stage]
      have unchanged := balanced.rollback (List.mem_of_getElem? found) ended
      obtain rfl : next = db := (handled.resolve_right And.right).trans unchanged
      exact ⟨trivial, balanced.quiet found rfl soundness⟩

end Steps

end Balanced

end ModelGate.Storage.Usage
