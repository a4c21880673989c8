import ModelGate.Semantics.Runs
import ModelGate.Service.Gateway

/-! Executions of a streaming request of the gateway, taken apart. -/

set_option autoImplicit false

namespace ModelGate.Service.GatewayService

open Data Semantics Provider Program

variable {T : Signature}

def own (op : Effect) (reply : effects.Reply op) : Event (effects.sum T) := ⟨.inl op, reply⟩

def passed (events : List (Event T)) : List (Event (effects.sum T)) :=
  events.map (Event.along (.inr effects T))

/-- Effects of which nothing is kept or counted. -/
def Passing (events : List (Event (effects.sum T))) : Prop :=
  ∀ event ∈ events, ∃ (op : Effect) (reply : effects.Reply op), op.Aside ∧ event = own op reply

theorem passing_nil : Passing ([] : List (Event (effects.sum T))) := List.forall_mem_nil _

theorem Passing.cons (op : Effect) {reply : effects.Reply op} (aside : op.Aside)
    {events : List (Event (effects.sum T))} (passing : Passing events) :
    Passing (own op reply :: events) := by
  intro event member
  rcases List.mem_cons.mp member with rfl | later
  · exact ⟨op, reply, aside, rfl⟩
  · exact passing event later

theorem Passing.append {early late : List (Event (effects.sum T))} (first : Passing early)
    (rest : Passing late) : Passing (early ++ late) := by
  intro event member
  rcases List.mem_append.mp member with here | later
  · exact first event here
  · exact rest event later

variable {g : GatewayService T} {m : Metered T} {α : Type} {trace : List (Event (effects.sum T))}
  {exit : Exit α}

/-! The panics of the observer -/

def panicOf : Event (effects.sum T) → Option String
  | ⟨.inl (.observeTokens _ _), panicked⟩ => panicked
  | _ => none

/-- Why the execution with this trace panics, if it does. -/
def panicIn (trace : List (Event (effects.sum T))) : Option String := trace.findSome? panicOf

theorem panicIn_eq_none : panicIn trace = none ↔ trace.filterMap panicOf = [] := by
  rw [panicIn, List.findSome?_eq_none_iff, List.filterMap_eq_nil_iff]

/-- What a call with this trace comes to. -/
def concluded (trace : List (Event (effects.sum T))) (value : α) : Exit α :=
  match panicIn trace with
  | none => .returned value
  | some reason => .aborted reason

theorem concluded_calm (calm : panicIn trace = none) (value : α) :
    concluded trace value = .returned value := by
  rw [concluded, calm]

theorem concluded_panic {reason : String} (panics : panicIn trace = some reason) (value : α) :
    concluded trace value = .aborted reason := by
  rw [concluded, panics]

theorem concluded_map {β : Type} (f : α → β) (value : α) :
    (concluded trace value).map f = concluded trace (f value) := by
  unfold concluded
  split <;> rfl

theorem concluded_returned {value result : α}
    (returned : .returned result = concluded trace value) :
    panicIn trace = none ∧ result = value := by
  cases met : panicIn trace with
  | none =>
      rw [concluded_calm met] at returned
      cases returned
      exact ⟨rfl, rfl⟩
  | some reason =>
      rw [concluded_panic met] at returned
      cases returned

@[simp] theorem panicIn_passed (events : List (Event T)) (rest : List (Event (effects.sum T))) :
    panicIn (passed events ++ rest) = panicIn rest := by
  have silent : (passed events).findSome? panicOf = none :=
    List.findSome?_eq_none_iff.mpr fun event member => by
      obtain ⟨_, -, rfl⟩ := List.mem_map.mp member
      rfl
  rw [panicIn, List.findSome?_append, silent, Option.none_or, panicIn]

theorem panicIn_cons {event : Event (effects.sum T)} (calm : panicOf event = none)
    (rest : List (Event (effects.sum T))) : panicIn (event :: rest) = panicIn rest := by
  rw [panicIn, List.findSome?_cons, calm, panicIn]

theorem panicIn_passing {events : List (Event (effects.sum T))} (passing : Passing events)
    (rest : List (Event (effects.sum T))) : panicIn (events ++ rest) = panicIn rest := by
  induction events with
  | nil => rfl
  | cons event events ih =>
      obtain ⟨op, reply, aside, rfl⟩ := passing event List.mem_cons_self
      have calm : panicOf (own (T := T) op reply) = none := by
        cases op <;> first | rfl | cases aside
      rw [List.cons_append, panicIn_cons calm, ih fun later member =>
        passing later (List.mem_cons_of_mem _ member)]

/-! The end of a stream -/

/-- What recording leaves behind. -/
def Saved (g : GatewayService T) (record : RequestRecord) (events : List (Event (effects.sum T))) :
    Prop :=
  if g.options.recorder then
    ∃ failed sunk, events = own (.record record) failed :: sunk ∧ Passing sunk
  else events = []

theorem Saved.calm {record : RequestRecord} {saved : List (Event (effects.sum T))}
    (kept : Saved g record saved) (rest : List (Event (effects.sum T))) :
    panicIn (saved ++ rest) = panicIn rest := by
  unfold Saved at kept
  split at kept
  · obtain ⟨failed, sunk, rfl, passing⟩ := kept
    rw [List.cons_append, panicIn_cons rfl, panicIn_passing passing]
  · rw [kept, List.nil_append]

theorem sink_runs {failed : Option Err} {next : Unit → Program (effects.sum T) α}
    (runs : (sink failed >>= next).Runs trace exit) :
    ∃ sunk rest, trace = sunk ++ rest ∧ Passing sunk ∧ (next ()).Runs rest exit := by
  cases failed with
  | none => exact ⟨[], trace, rfl, passing_nil, runs⟩
  | some err =>
      obtain ⟨_, rest, rfl, goes⟩ := Runs.call runs
      exact ⟨[own (.errorSink err) ()], rest, rfl, .cons (.errorSink err) trivial passing_nil, goes⟩

theorem record_runs {record : RequestRecord} {next : Unit → Program (effects.sum T) α}
    (runs : (g.record record >>= next).Runs trace exit) :
    ∃ saved rest, trace = saved ++ rest ∧ Saved g record saved ∧ (next ()).Runs rest exit := by
  unfold GatewayService.record at runs
  split at runs <;> rename_i recorder
  · rw [bind_assoc] at runs
    obtain ⟨failed, later, rfl, goes⟩ := Runs.call runs
    obtain ⟨sunk, rest, rfl, passing, left⟩ := sink_runs goes
    refine ⟨own (.record record) failed :: sunk, rest, rfl, ?_, left⟩
    rw [Saved, if_pos recorder]
    exact ⟨failed, sunk, rfl, passing⟩
  · refine ⟨[], trace, rfl, ?_, runs⟩
    rw [Saved, if_neg recorder]

theorem observeTokens_runs {providerName : String} {usage : ChatUsage} {exit : Exit Unit}
    (runs : (observeTokens providerName usage).Runs trace exit) :
    ∃ panicked, trace = [own (.observeTokens providerName usage) panicked] ∧
    exit = concluded trace () := by
  obtain ⟨panicked, last, rfl, halts⟩ := Runs.call runs
  cases panicked with
  | none =>
      obtain ⟨rfl, rfl⟩ := runs_done.mp halts
      exact ⟨none, rfl, rfl⟩
  | some reason =>
      obtain ⟨rfl, rfl⟩ := runs_abort.mp halts
      exact ⟨some reason, rfl, rfl⟩

def Recorded (g : GatewayService T) (m : Metered T) (status : RecordStatus) (errorCode : String)
    (events : List (Event (effects.sum T))) : Prop :=
  ∃ usage saved panicked, events = own .cancel () :: own (.loadUsage m.stream) usage ::
      (saved ++ [own (.observeTokens m.provider usage) panicked, own (.leaveOnce m.stream) ()]) ∧
    Saved g (m.record status errorCode usage) saved

/-- The `once` of a metered stream either is spent or records the request. -/
def Finished (g : GatewayService T) (m : Metered T) (status : RecordStatus) (errorCode : String)
    (events : List (Event (effects.sum T))) : Prop :=
  events = [own (.enterOnce m.stream) false] ∨
    ∃ body, events = own (.enterOnce m.stream) true :: body ∧ Recorded g m status errorCode body

/-- The `once` is left, also when the observer panics. -/
theorem recorded_runs {status : RecordStatus} {errorCode : String} {exit : Exit Unit}
    (runs : (Program.ensuring (do
      effect .cancel
      let usage ← effect (.loadUsage m.stream)
      g.finish m status errorCode usage) (effect (.leaveOnce m.stream))).Runs trace exit) :
    Recorded g m status errorCode trace ∧ exit = concluded trace () := by
  obtain ⟨inside, leaving, first, rfl, works, leaves⟩ := runs.ensuring
  obtain ⟨_, nothing, rfl, ends⟩ := Runs.call leaves
  obtain ⟨rfl, rfl⟩ := runs_exit ends
  obtain ⟨_, loads, rfl, loading⟩ := Runs.call works
  obtain ⟨usage, records, rfl, recording⟩ := Runs.call loading
  obtain ⟨saved, observes, rfl, kept, observing⟩ := record_runs recording
  obtain ⟨panicked, rfl, rfl⟩ := observeTokens_runs observing
  have whole : (own .cancel () :: own (.loadUsage m.stream) usage ::
        (saved ++ [own (.observeTokens m.provider usage) panicked]) ++
        [own (.leaveOnce m.stream) ()] : List (Event (effects.sum T))) =
      own .cancel () :: own (.loadUsage m.stream) usage ::
      (saved ++ [own (.observeTokens m.provider usage) panicked, own (.leaveOnce m.stream)
          ()]) := by
    simp
  refine ⟨⟨usage, saved, panicked, whole, kept⟩, ?_⟩
  have same : panicIn (own .cancel () :: own (.loadUsage m.stream) usage ::
      (saved ++ [own (.observeTokens m.provider usage) panicked, own (.leaveOnce m.stream) ()])) =
        panicIn [own (T := T) (.observeTokens m.provider usage) panicked] := by
    rw [panicIn_cons rfl, panicIn_cons rfl, kept.calm]
    cases panicked <;> rfl
  show concluded _ () =
    concluded (own .cancel () :: own (.loadUsage m.stream) usage ::
      (saved ++ [own (.observeTokens m.provider usage) panicked]) ++ [own (.leaveOnce m.stream) ()])
    ()
  rw [whole, concluded, concluded, same]

theorem finishOnce_runs {status : RecordStatus} {errorCode : String} {value : α}
    (runs : (g.finishOnce m status errorCode >>= fun _ => pure value).Runs trace exit) :
    Finished g m status errorCode trace ∧ exit = concluded trace value := by
  rw [finishOnce, onceDo, bind_assoc] at runs
  obtain ⟨first, later, rfl, goes⟩ := Runs.call runs
  cases first with
  | false =>
      obtain ⟨rfl, rfl⟩ := runs_done.mp goes
      exact ⟨.inl rfl, rfl⟩
  | true =>
      have entered : panicIn (own (T := T) (.enterOnce m.stream) true :: later) = panicIn later :=
        panicIn_cons rfl later
      rcases Runs.bind goes with ⟨body, rest, _, rfl, works, left⟩ | ⟨reason, stuck, rfl⟩
      · obtain ⟨rfl, rfl⟩ := runs_done.mp left
        obtain ⟨recorded, returned⟩ := recorded_runs works
        rw [List.append_nil] at entered ⊢
        exact ⟨.inr ⟨body, rfl, recorded⟩,
          (concluded_calm (entered.trans (concluded_returned returned).1) value).symm⟩
      · obtain ⟨recorded, aborted⟩ := recorded_runs stuck
        refine ⟨.inr ⟨later, rfl, recorded⟩, ?_⟩
        cases met : panicIn later with
        | none =>
            rw [concluded_calm met] at aborted
            cases aborted
        | some panicked =>
            rw [concluded_panic met] at aborted
            cases aborted
            exact (concluded_panic (entered.trans met) value).symm

/-! The calls on a stream -/

def noted (m : Metered T) (chunk : Option ChatStreamChunk) : List (Event (effects.sum T)) :=
  match chunk.bind ChatStreamChunk.usage with
  | none => []
  | some usage => [own (.storeUsage m.stream usage) ()]

theorem panicIn_noted (chunk : Option ChatStreamChunk) (rest : List (Event (effects.sum T))) :
    panicIn (noted m chunk ++ rest) = panicIn rest := by
  unfold noted
  split
  · rfl
  · exact panicIn_cons rfl rest

theorem noteUsage_runs {chunk : Option ChatStreamChunk} {next : Unit → Program (effects.sum T) α}
    (runs : (noteUsage m chunk >>= next).Runs trace exit) :
    ∃ rest, trace = noted m chunk ++ rest ∧ (next ()).Runs rest exit := by
  rw [noteUsage] at runs
  rw [noted]
  cases used : chunk.bind ChatStreamChunk.usage with
  | none =>
      rw [used] at runs
      exact ⟨trace, rfl, runs⟩
  | some usage =>
      rw [used] at runs
      obtain ⟨_, rest, rfl, goes⟩ := Runs.call runs
      exact ⟨rest, rfl, goes⟩

/-- What a received error means for the record. -/
def Ended (g : GatewayService T) (m : Metered T) : Option Err → List (Event (effects.sum T)) → Prop
  | none, events => events = []
  | some err, events =>
      if err.is .eof then Finished g m .succeeded "" events
      else Finished g m .failed (gatewayErrorCode err) events

theorem noteEnd_runs {err : Option Err} {value : α}
    (runs : (g.noteEnd m err >>= fun _ => pure value).Runs trace exit) :
    Ended g m err trace ∧ exit = concluded trace value := by
  cases err with
  | none =>
      obtain ⟨rfl, rfl⟩ := runs_done.mp runs
      exact ⟨rfl, rfl⟩
  | some err =>
      simp only [noteEnd] at runs
      simp only [Ended]
      split at runs <;> rename_i eof
      · simp only [if_pos eof]
        exact finishOnce_runs runs
      · simp only [if_neg eof]
        exact finishOnce_runs runs

section Streams

variable {inner : Stream T} (wraps : m.inner = some inner)
include wraps

theorem recv_runs (returns : ∀ events reason, ¬inner.Recv.Runs events (.aborted reason))
    {exit : Exit (Option ChatStreamChunk × Option Err)}
    (runs : (g.metered m).Recv.Runs trace exit) :
    ∃ received events ended, inner.Recv.Runs events (.returned received) ∧
    Ended g m received.2 ended ∧
      trace = passed events ++ (noted m received.1 ++ ended) ∧ exit = concluded trace received := by
  simp only [metered, Recv, wraps] at runs
  obtain ⟨events, received, rest, heard, rfl, goes⟩ := Runs.along_bind returns runs
  obtain ⟨ends, rfl, notes⟩ := noteUsage_runs goes
  obtain ⟨settled, rfl⟩ := noteEnd_runs notes
  refine ⟨received, events, ends, heard, settled, rfl, ?_⟩
  show _ = concluded (passed events ++ (noted m received.1 ++ ends)) received
  rw [concluded, concluded, panicIn_passed, panicIn_noted]

theorem close_runs (returns : ∀ events reason, ¬inner.Close.Runs events (.aborted reason))
    {exit : Exit (Option Err)} (runs : (g.metered m).Close.Runs trace exit) :
    ∃ failed events ended, inner.Close.Runs events (.returned failed) ∧
    Finished g m .failed (if failed.isSome then "stream_close_failed" else "stream_closed") ended ∧
    trace = passed events ++ ended ∧ exit = concluded trace failed := by
  simp only [metered, Close, wraps] at runs
  obtain ⟨events, failed, rest, closed, rfl, goes⟩ := Runs.along_bind returns runs
  obtain ⟨settled, rfl⟩ := finishOnce_runs goes
  refine ⟨failed, events, rest, closed, settled, rfl, ?_⟩
  show _ = concluded (passed events ++ rest) failed
  rw [concluded, concluded, panicIn_passed]

end Streams

/-! What the provider's stream returns, seen through the gateway -/

def Owned (events : List (Event (effects.sum T))) : Prop :=
  ∀ event ∈ events, ∃ (op : Effect) (reply : effects.Reply op), event = own op reply

theorem Owned.unseen {β : Type} {sees : Event T → Option β} {events : List (Event (effects.sum T))}
    (owned : Owned events) : events.filterMap (behind sees) = [] := by
  rw [List.filterMap_eq_nil_iff]
  intro event member
  obtain ⟨op, reply, rfl⟩ := owned event member
  rfl

theorem owned_nil : Owned ([] : List (Event (effects.sum T))) := List.forall_mem_nil _

theorem Owned.cons {op : Effect} {reply : effects.Reply op} {events : List (Event (effects.sum T))}
    (owned : Owned events) : Owned (own op reply :: events) :=
  List.forall_mem_cons.mpr ⟨⟨op, reply, rfl⟩, owned⟩

theorem Owned.append {early late : List (Event (effects.sum T))} (first : Owned early)
    (rest : Owned late) : Owned (early ++ late) :=
  List.forall_mem_append.mpr ⟨first, rest⟩

theorem Passing.owned {events : List (Event (effects.sum T))} (passing : Passing events) :
    Owned events := by
  intro event member
  obtain ⟨op, reply, -, same⟩ := passing event member
  exact ⟨op, reply, same⟩

theorem Finished.owned {status : RecordStatus} {errorCode : String}
    {events : List (Event (effects.sum T))} (finished : Finished g m status errorCode events) :
    Owned events := by
  rcases finished with rfl | ⟨_, rfl, usage, saved, panicked, rfl, kept⟩
  · exact owned_nil.cons
  · have keeps : Owned saved := by
      unfold Saved at kept
      split at kept
      · obtain ⟨failed, sunk, rfl, passing⟩ := kept
        exact passing.owned.cons
      · exact kept ▸ owned_nil
    exact (keeps.append owned_nil.cons.cons).cons.cons.cons

theorem Ended.owned {err : Option Err} {events : List (Event (effects.sum T))}
    (ended : Ended g m err events) : Owned events := by
  cases err with
  | none => exact ended ▸ owned_nil
  | some err =>
      simp only [Ended] at ended
      split at ended <;> exact ended.owned

theorem noted_owned (chunk : Option ChatStreamChunk) : Owned (noted m chunk) := by
  unfold noted
  split
  · exact owned_nil
  · exact owned_nil.cons

section Seen

variable {inner : Stream T} (wraps : m.inner = some inner)
  {sees : Event T → Option (Option ChatStreamChunk × Option Err)}
include wraps

theorem recv_seen (returns : ∀ events reason, ¬inner.Recv.Runs events (.aborted reason))
    (seen : ∀ events received, inner.Recv.Runs events (.returned received) →
      events.filterMap sees = [received])
    {exit : Exit (Option ChatStreamChunk × Option Err)}
    (runs : (g.metered m).Recv.Runs trace exit) :
    ∃ received, trace.filterMap (behind sees) = [received] ∧ exit = concluded trace received ∧
      (received.2 = none → panicIn trace = none) := by
  obtain ⟨received, events, ended, heard, settled, rfl, same⟩ := recv_runs wraps returns runs
  refine ⟨received, ?_, same, fun chunk => ?_⟩
  · rw [List.filterMap_append, List.filterMap_append, (noted_owned received.1).unseen,
      settled.owned.unseen, passed, behind_passed, seen _ _ heard]
    rfl
  · rw [chunk] at settled
    obtain rfl : ended = [] := settled
    rw [panicIn_passed, panicIn_noted]
    rfl

end Seen

/-! The request that opens a stream -/

theorem requestID_runs {metadata : RequestMetadata}
    {next : Except Err String → Program (effects.sum T) α}
    (runs : (requestID metadata >>= next).Runs trace exit) :
    ∃ before rest id, trace = before ++ rest ∧ Passing before ∧ (next id).Runs rest exit := by
  unfold requestID at runs
  split at runs
  · rw [bind_assoc] at runs
    obtain ⟨read, rest, rfl, goes⟩ := Runs.call runs
    exact ⟨[own .randRead read], rest, _, rfl, .cons .randRead trivial passing_nil, goes⟩
  · exact ⟨[], trace, _, rfl, passing_nil, runs⟩

theorem limited_runs {answer : Except Err RateLimit.Decision}
    {next : Except Err RateLimit.Decision → Program (effects.sum T) α}
    (runs : (g.limited answer >>= next).Runs trace exit) :
    ∃ before rest decision, trace = before ++ rest ∧ Passing before ∧
    (next decision).Runs rest exit := by
  cases answer with
  | error err =>
      rw [limited, bind_assoc] at runs
      obtain ⟨_, rest, rfl, goes⟩ := Runs.call runs
      have reported : Passing [own (T := T) (.errorSink err) ()] :=
        .cons (.errorSink err) trivial passing_nil
      split at goes
      · exact ⟨_, rest, _, rfl, reported, goes⟩
      · exact ⟨_, rest, _, rfl, reported, goes⟩
  | ok decision =>
      rw [limited] at runs
      split at runs
      · rw [bind_assoc] at runs
        obtain ⟨_, rest, rfl, goes⟩ := Runs.call runs
        exact ⟨[own .observeRateLimited ()], rest, _, rfl,
          .cons .observeRateLimited trivial passing_nil, goes⟩
      · exact ⟨[], trace, _, rfl, passing_nil, runs⟩

theorem enforceRateLimit_runs {identity : Bytes}
    {next : Except Err RateLimit.Decision → Program (effects.sum T) α}
    (runs : (g.enforceRateLimit identity >>= next).Runs trace exit) :
    ∃ before rest decision, trace = before ++ rest ∧ Passing before ∧
    (next decision).Runs rest exit := by
  unfold enforceRateLimit at runs
  split at runs
  · exact ⟨[], trace, _, rfl, passing_nil, runs⟩
  · rw [bind_assoc] at runs
    obtain ⟨answer, rest, rfl, goes⟩ := Runs.call runs
    obtain ⟨before, later, decision, rfl, passing, left⟩ := limited_runs goes
    exact ⟨own (.allow identity) answer :: before, later, decision, rfl,
      .cons (.allow identity) trivial passing, left⟩

theorem opened_runs {req : ChatRequest} {requestID : String} {decision : RateLimit.Decision}
    {answer : Except Err (Option (Stream T))} {result : StreamResult T}
    (runs : (g.opened req requestID decision answer).Runs trace (.returned (.ok result))) :
    ∃ m : Metered T, answer = .ok m.inner ∧ trace = [own .newStream m.stream] ∧
    result.stream = g.metered m ∧
    (m.requestID, m.provider, m.model) = (result.requestID, result.provider, req.model) := by
  cases answer with
  | error err =>
      obtain ⟨saved, rest, rfl, -, goes⟩ := record_runs runs
      obtain ⟨_, last, rfl, ends⟩ := Runs.call goes
      cases (runs_done.mp ends).2
  | ok stream =>
      obtain ⟨cell, last, rfl, ends⟩ := Runs.call runs
      obtain ⟨rfl, same⟩ := runs_done.mp ends
      cases same
      exact ⟨_, rfl, rfl, rfl, rfl⟩

theorem chatStream_opens {req : ChatRequest} {metadata : RequestMetadata} {result : StreamResult T}
    (runs : (g.ChatStream req metadata).Runs trace (.returned (.ok result))) :
    ∃ (m : Metered T) (before : List (Event (effects.sum T))) (during : List (Event T)),
      (g.chat.ChatStream req).Runs during (.returned (.ok m.inner)) ∧ Passing before ∧
      trace = before ++ (passed during ++ [own .newStream m.stream]) ∧ result.stream = g.metered m ∧
      (m.requestID, m.provider, m.model) = (result.requestID, result.provider, req.model) := by
  have refused (err : Err) : ¬(refuseStream (T := T) err).Runs trace (.returned (.ok result)) := by
    intro goes
    obtain ⟨_, last, -, ends⟩ := Runs.call goes
    cases (runs_done.mp ends).2
  -- The three checks before the request has an ID refuse it, and so does an error of either
  -- step after them.
  unfold ChatStream at runs
  split at runs
  · exact absurd runs (refused _)
  · rename_i valid
    split at runs
    · exact absurd runs (refused _)
    · rename_i streams
      split at runs
      · exact absurd runs (refused _)
      · obtain ⟨first, rest, id, rfl, identified, goes⟩ := requestID_runs runs
        cases id with
        | error err =>
            obtain ⟨_, last, -, ends⟩ := Runs.call goes
            cases (runs_done.mp ends).2
        | ok requestID =>
            obtain ⟨second, later, decision, rfl, limited, continues⟩ := enforceRateLimit_runs goes
            cases decision with
            | error err =>
                obtain ⟨saved, left, rfl, -, cancels⟩ := record_runs continues
                obtain ⟨_, last, -, ends⟩ := Runs.call cancels
                cases (runs_done.mp ends).2
            | ok decision =>
                have asks : ChatService.ChatStream g.chat req = g.chat.ChatStream req := by
                  rw [ChatService.ChatStream, valid]
                  exact if_neg streams
                rw [admittedStream, asks] at continues
                rcases continues.bind with ⟨early, late, answer, rfl, asked, opens⟩ |
                  ⟨_, _, impossible⟩
                · obtain ⟨during, rfl, own'⟩ := asked.along
                  obtain ⟨m, rfl, rfl, wraps, describes⟩ := opened_runs opens
                  refine ⟨m, first ++ second, during, own', identified.append limited, ?_, wraps,
                    describes⟩
                  rw [List.append_assoc]
                  rfl
                · cases impossible

end ModelGate.Service.GatewayService
