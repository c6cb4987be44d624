/-
A server whose handlers only read.  Whatever other connections do meanwhile, each
connection gets the responses of a session that is alone.
-/
import SwanServer.Conversations

namespace SwanServer

namespace Server

section Sequential

variable {ι φ σ : Type} {parseRequest : Str → Option Request}
  {program : φ → Request → Response → Resumption σ Fault (Bool × Response)}
  {create : φ → HandleRequest σ} {routes : FactoryRoutes φ} {store : σ}

/-- On a store that nobody changes, a program does what its handler does. -/
structure ReadsAlike (program : φ → Request → Response → Resumption σ Fault (Bool × Response))
    (create : φ → HandleRequest σ) (store : σ) : Prop where
  keeps : ∀ factory httpRequest httpResponse,
    (program factory httpRequest httpResponse).Keeps (· = store)
  exec : ∀ factory httpRequest httpResponse,
    (program factory httpRequest httpResponse).exec store =
      (create factory httpRequest httpResponse).exec store

/-- A response that others could not disturb is the one that `processRequest` makes. -/
theorem ReadsAlike.exec_processRequest (halike : ReadsAlike program create store)
    {table : FactoryRoutes φ} {requestString : Str}
    {result : Except Fault (Response × FactoryRoutes φ)}
    (hyields : (processProgram parseRequest program table requestString .empty).Yields
      (· = store) result) :
    (processRequest parseRequest create table requestString .empty).exec store =
      (result, store) := by
  have hkeeps : (processProgram parseRequest program table requestString .empty).Keeps
      (· = store) := keeps_processProgram halike.keeps table requestString .empty
  rw [← exec_processProgram halike.exec, hkeeps.eq_of_yields hyields]
  exact Prod.ext rfl (hkeeps.exec rfl).2

/-- A conversation is the front of what a session alone says to the same reads. -/
theorem responses_of_conversation (halike : ReadsAlike program create store) {data : Buffer}
    {chunks : List Chunk} {said : List Response} {buffer : Buffer} {table : FactoryRoutes φ}
    (hconversation : Conversation parseRequest program (· = store) data routes chunks said
      buffer table) (rest : List Chunk) :
    responses parseRequest create ⟨data, routes, store⟩ (chunks ++ rest) =
      said ++ responses parseRequest create ⟨buffer, table, store⟩ rest := by
  induction hconversation generalizing rest with
  | start => rfl
  | @answer chunks said buffer table later chunk requestString httpResponse hearlier hstring
      hyields ih =>
      have hanswer : (onRead parseRequest create buffer chunk table).exec store =
          (.ok (httpResponse, later), store) := by
        rw [onRead, handleRead, hstring]
        exact halike.exec_processRequest hyields
      rw [List.append_assoc, List.append_assoc, List.singleton_append, ih (chunk :: rest),
        responses, hanswer]
      rfl

/-- One read gets one response at most. -/
theorem length_responses_le (session : Session φ σ) (chunks : List Chunk) :
    (responses parseRequest create session chunks).length ≤ chunks.length := by
  induction chunks generalizing session with
  | nil => exact Nat.le_refl 0
  | cons chunk rest ih =>
      rw [responses]
      split
      · exact Nat.succ_le_succ (ih _)
      · exact Nat.zero_le _

/-- What has been told is what a session alone says, but for one response. -/
theorem Told.sequential (halike : ReadsAlike program create store) {data : Buffer}
    {received : List Chunk} {sent : List Response}
    (htold : Told parseRequest program (· = store) data routes received sent) :
    ∃ rest : List Response, rest.length ≤ 1 ∧
      responses parseRequest create ⟨data, routes, store⟩ received = sent ++ rest := by
  obtain ⟨chunks, said, buffer, table, hconversation, hshape⟩ := htold
  have hsaid := responses_of_conversation halike hconversation
  rcases hshape with ⟨rfl, rfl | ⟨last, rfl⟩⟩ | ⟨rfl, last, rfl⟩
  · refine ⟨[], Nat.zero_le 1, ?_⟩
    simpa [responses] using hsaid []
  · refine ⟨[last], Nat.le_refl 1, ?_⟩
    simpa [responses] using hsaid []
  · exact ⟨_, length_responses_le _ [last], hsaid [last]⟩

/-- In a server whose handlers only read, every connection gets what a session alone, made
from the same memory, would answer to its reads, in the same order: all of it, or all but
the last response, which is still to come. -/
theorem responses_of_run [Fintype ι] [DecidableEq ι] {memory : Buffer}
    {events : List (Event ι)} {final : State ι φ σ}
    (halike : ReadsAlike program create store)
    (hrun : (system parseRequest program routes).run (initial routes memory store) events =
      some final) (session : Nat) :
    ∃ rest : List Response, rest.length ≤ 1 ∧
      responses parseRequest create ⟨final.memory session, routes, store⟩
          (final.received session) =
        final.sent session ++ rest := by
  have hconversing := conversing_of_run halike.keeps rfl hrun
  exact (hconversing.stands session).told.sequential halike

end Sequential

namespace SequentialSessionsWitness

open SegmentationWitness ServerRunsWitness

theorem readsAlike_counting (store : Nat) :
    ReadsAlike (counting id) (countingHandler id) store where
  keeps := ConversationsWitness.keeps_counting fun _ => id
  exec _ _ _ := rfl

def outcome : Option (State Bool RequestHandlerFactory Nat) :=
  (system parseGet (counting id) routes).run (initial routes SessionWitness.zeroed 7) overlapping

theorem isSome_outcome : outcome.isSome = true := by decide +kernel

/-- The second session was made from stale memory and has delivered two requests. -/
theorem responses_events :
    let final := outcome.get isSome_outcome
    ∃ rest : List Response, rest.length ≤ 1 ∧
      responses parseGet (countingHandler id) ⟨final.memory 1, routes, 7⟩ (final.received 1) =
        final.sent 1 ++ rest :=
  responses_of_run (readsAlike_counting 7) (Option.some_get isSome_outcome).symm 1

end SequentialSessionsWitness

end Server

end SwanServer
