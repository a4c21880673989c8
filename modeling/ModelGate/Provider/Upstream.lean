import ModelGate.Provider.Interface
import ModelGate.Semantics.Runs

/-! The calls on a provider upstream, one event each. -/

set_option autoImplicit false

namespace ModelGate.Provider

open Semantics Program

def receivedOf : Event upstreamCalls → Option (Option ChatStreamChunk × Option Err)
  | ⟨.recv _, received⟩ => some received
  | _ => none

section Upstream

variable {source : Nat} {name : Option String}

theorem upstream_recv_runs {events : List (Event upstreamCalls)}
    {exit : Exit (Option ChatStreamChunk × Option Err)}
    (runs : (upstreamStream source name).Recv.Runs events exit) :
    ∃ received, events = [⟨.recv source, received⟩] ∧ exit = .returned received := by
  obtain ⟨received, _, rfl, ends⟩ := runs_perform.mp runs
  obtain ⟨rfl, rfl⟩ := runs_done.mp ends
  exact ⟨received, rfl, rfl⟩

theorem upstream_close_runs {events : List (Event upstreamCalls)} {exit : Exit (Option Err)}
    (runs : (upstreamStream source name).Close.Runs events exit) :
    ∃ failed, events = [⟨.close source, failed⟩] ∧ exit = .returned failed := by
  obtain ⟨failed, _, rfl, ends⟩ := runs_perform.mp runs
  obtain ⟨rfl, rfl⟩ := runs_done.mp ends
  exact ⟨failed, rfl, rfl⟩

theorem upstream_recv_returns (events : List (Event upstreamCalls)) (reason : String) :
    ¬(upstreamStream source name).Recv.Runs events (.aborted reason) := by
  intro runs
  obtain ⟨_, -, impossible⟩ := upstream_recv_runs runs
  cases impossible

theorem upstream_close_returns (events : List (Event upstreamCalls)) (reason : String) :
    ¬(upstreamStream source name).Close.Runs events (.aborted reason) := by
  intro runs
  obtain ⟨_, -, impossible⟩ := upstream_close_runs runs
  cases impossible

theorem upstream_heard (events : List (Event upstreamCalls))
    (received : Option ChatStreamChunk × Option Err)
    (runs : (upstreamStream source name).Recv.Runs events (.returned received)) :
    events.filterMap receivedOf = [received] := by
  obtain ⟨_, rfl, same⟩ := upstream_recv_runs runs
  cases same
  rfl

theorem upstream_opens {req : ChatRequest} {events : List (Event upstreamCalls)}
    {opened : Option (Stream upstreamCalls)}
    (runs : (upstream.ChatStream req).Runs events (.returned (.ok opened))) :
    events.filterMap receivedOf = [] ∧
    (opened = none ∨ ∃ source name, opened = some (upstreamStream source name)) := by
  obtain ⟨answer, _, rfl, ends⟩ := Runs.call runs
  obtain ⟨rfl, same⟩ := runs_done.mp ends
  refine ⟨rfl, ?_⟩
  match answer, same with
  | .ok none, same =>
      cases same
      exact .inl rfl
  | .ok (some (source, name)), same =>
      cases same
      exact .inr ⟨source, name, rfl⟩

end Upstream

end ModelGate.Provider
