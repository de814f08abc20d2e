import MoneyLaundering.Client.Once
import MoneyLaundering.Pipeline.System

/-!
# A client in conversation with the pipeline

`InternalRouter.component` is a gateway that forwards each upload once. The gateway that talks to a
client over many sessions forwards what the client sends, and a client sends an upload again when a
session was lost before its acknowledgement. In conversations in which no session is lost so early
the one refines the other (`refines_component`), so that a pipeline whose gateway is in conversation
with a client publishes and delivers nothing that the pipeline could not (`exists_pipeline`).
-/

namespace MoneyLaundering

open EventRuns

namespace Conversation

variable {G R : Type} {router : InternalRouter} {exchange : String} {cfg : ClientConfig}
  {client : ClientId}

/-- A client and the gateway as a component that publishes what the gateway forwards, or a cleanup,
in conversations in which nothing happens but what is allowed. -/
def component (allowed : Conversation R → Event R → Prop) (router : InternalRouter)
    (exchange : String) (cfg : ClientConfig) (client : ClientId) : Dataflow.Component G Posted where
  State := Conversation R
  initial := init
  Receives _ _ _ _ _ := False
  Works s more s' :=
    (∃ event new, allowed s event ∧ s' = s.step cfg router client event ∧
      s'.forwarded = s.forwarded ++ new ∧ more = new.map fun p ↦ p.2.posted exchange) ∨
    (more = (router.forwardCleanupEof client).map (RawMessage.posted exchange) ∧ s' = s)

/-- After a conversation in which no session is lost before its uploads are acknowledged, the
gateway has forwarded `k` uploads. -/
structure HasForwarded (router : InternalRouter) (cfg : ClientConfig) (client : ClientId)
    (s : Conversation R) (k : ℕ) : Prop where
  exists_run : ∃ events, EventRuns.Runs (step cfg router client) Acknowledged init events ∧
    s = run (step cfg router client) init events
  length : k = s.forwarded.length

/-- **The gateway of a conversation refines the gateway that forwards one upload after the
other.** -/
theorem refines_component :
    (component (R := R) Acknowledged router exchange cfg client
        : Dataflow.Component G Posted).Refines
      (router.component exchange cfg client) (HasForwarded router cfg client) where
  initial := ⟨⟨[], trivial, rfl⟩, rfl⟩
  receives _ h := h.elim
  works := by
    rintro s t k more ⟨⟨events, hruns, rfl⟩, rfl⟩
      (⟨event, new, hack, rfl, hnew, rfl⟩ | ⟨rfl, rfl⟩)
    · have honce := forwarded_once events hruns
      have hlater : ∃ later, EventRuns.Runs (step cfg router client) Acknowledged init later ∧
          (run (step cfg router client) init events).step cfg router client event
            = run (step cfg router client) init later :=
        ⟨events ++ [event], runs_append.mpr ⟨hruns, hack, trivial⟩, by rw [run_append]; rfl⟩
      rcases honce.forwarded_step event with hsame | ⟨u, message, hget, hdispatch, hnext⟩
      · obtain rfl := List.append_right_eq_self.mp (hnew.symm.trans hsame)
        exact ⟨_, .refl _, hlater, by rw [hsame]⟩
      · obtain rfl := List.append_cancel_left (hnew.symm.trans hnext)
        refine ⟨_, .single (Or.inl ⟨u, message, hget, hdispatch, rfl, rfl⟩), hlater, ?_⟩
        rw [hnext, List.length_append, List.length_singleton]
    · exact ⟨_, .single (Or.inr ⟨rfl, rfl⟩), ⟨events, hruns, rfl⟩, rfl⟩

/-- What the gateway forwards in a conversation, the component publishes. -/
theorem exists_worksMany {allowed : Conversation R → Event R → Prop} {events : List (Event R)}
    {s t : Conversation R} (hruns : EventRuns.Runs (step cfg router client) allowed s events)
    (hrun : run (step cfg router client) s events = t) :
    ∃ new, t.forwarded = s.forwarded ++ new ∧
      (component allowed router exchange cfg client : Dataflow.Component G Posted).WorksMany s
        (new.map fun p ↦ p.2.posted exchange) t := by
  induction events generalizing s with
  | nil =>
    subst hrun
    exact ⟨[], (List.append_nil _).symm, .refl _⟩
  | cons event events ih =>
    obtain ⟨new, hnew⟩ : ∃ new, (s.step cfg router client event).forwarded = s.forwarded ++ new :=
      exists_forwarded_step s event
    obtain ⟨later, hlater, hworks⟩ := ih hruns.2 hrun
    refine ⟨new ++ later, by rw [hlater, hnew, List.append_assoc], ?_⟩
    rw [List.map_append]
    exact .trans (.single (Or.inl ⟨event, new, hruns.1, rfl, hnew, rfl⟩)) hworks

/-- The first uploads of the stream, with what the gateway makes of them. -/
def dispatched (router : InternalRouter) (cfg : ClientConfig) (client : ClientId) (k : ℕ) :
    List (Upload × RawMessage) :=
  ((messagesToSend cfg).1.take k).filterMap fun u ↦ (router.dispatch client u).map (Prod.mk u)

theorem dispatched_succ {k : ℕ} {u : Upload} {message : RawMessage}
    (hget : (messagesToSend cfg).1[k]? = some u)
    (hdispatch : router.dispatch client u = some message) :
    dispatched router cfg client (k + 1) = dispatched router cfg client k ++ [(u, message)] := by
  rw [dispatched, List.take_add_one, hget, List.filterMap_append]
  simp [dispatched, hdispatch]

/-- The conversation is in its first session, and `k` uploads were forwarded and acknowledged. -/
def Serves (router : InternalRouter) (cfg : ClientConfig) (client : ClientId) (k : ℕ)
    (s : Conversation R) : Prop :=
  (dispatched router cfg client k).length = k ∧
    (s = served (dispatched router cfg client k) ∨ k = 0 ∧ s = init)

/-- **A gateway that forwards one upload after the other refines the gateway of a conversation.** -/
theorem component_refines :
    (router.component exchange cfg client : Dataflow.Component G Posted).Refines
      (component (R := R) Acknowledged router exchange cfg client) (Serves router cfg client) where
  initial := ⟨rfl, Or.inr ⟨rfl, rfl⟩⟩
  receives _ h := h.elim
  works := by
    rintro (k : ℕ) k' s more ⟨hlength, hs⟩ (⟨u, message, hget, hdispatch, rfl, rfl⟩ | ⟨rfl, rfl⟩)
    · have hnext := dispatched_succ hget hdispatch
      refine ⟨served (dispatched router cfg client (k + 1)), ?_, ?_, Or.inl rfl⟩
      · have hserved : (component (R := R) Acknowledged router exchange cfg client
            : Dataflow.Component G Posted).WorksMany (served (dispatched router cfg client k))
              [message.posted exchange] (served (dispatched router cfg client (k + 1))) := by
          rw [← hlength] at hget
          have hrun := run_exchange (R := R) hget hdispatch
          rw [hnext]
          obtain ⟨new, hnew, hworks⟩ := exists_worksMany (acknowledged_exchange _) hrun
          obtain rfl : [(u, message)] = new := List.append_cancel_left hnew
          exact hworks
        rcases hs with rfl | ⟨rfl, rfl⟩
        · exact hserved
        · -- the session has to begin first
          have hconnect : (component (R := R) Acknowledged router exchange cfg client
              : Dataflow.Component G Posted).Works init [] (served []) :=
            Or.inl ⟨.connect, [], fun _ ↦ rfl, step_connect.symm, rfl, rfl⟩
          exact .trans (.single hconnect) hserved
      · rw [hnext, List.length_append, hlength, List.length_singleton]
    · exact ⟨s, .single (Or.inr ⟨rfl, rfl⟩), hlength, hs⟩

end Conversation

namespace Deployment

variable {A : Type} [Amount A] [Mul A] [OfScientific A] [LE A] [DecidableLE A] (lib : Library A)
  (hash : String → ℕ) (paymentFormatKey : String → String) (d : Deployment A) (cfg : ClientConfig)
  (client : ClientId) {R : Type} (allowed : Conversation R → Conversation.Event R → Prop)

def conversingComponent : Participant → Dataflow.Component Intake Posted
  | .gateway => Conversation.component allowed router exchangeRawData cfg client
  | .stateless kind => d.component lib hash paymentFormatKey cfg client (.stateless kind)
  | .stateful kind => d.component lib hash paymentFormatKey cfg client (.stateful kind)
  | .sideInput kind => d.component lib hash paymentFormatKey cfg client (.sideInput kind)

/-- The pipeline whose gateway is in conversation with a client. -/
def conversing : Dataflow.System Participant Intake Posted :=
  (d.pipeline lib hash paymentFormatKey cfg client).withComponents
    (d.conversingComponent lib hash paymentFormatKey cfg client allowed)

/-- The gateways are related as they should be, and the workers are the same. -/
def Matches (gateways : Conversation R → ℕ → Prop) : ∀ c : Participant,
    (d.conversingComponent lib hash paymentFormatKey cfg client allowed c).State →
      (d.component lib hash paymentFormatKey cfg client c).State → Prop
  | .gateway => gateways
  | .stateless _ | .stateful _ | .sideInput _ => Eq

variable {lib hash paymentFormatKey d cfg client allowed}

/-- The conversation of the gateway with the client. -/
def conversation (s : (d.conversing lib hash paymentFormatKey cfg client allowed).State) :
    Conversation R := s.state .gateway

theorem conversation_work (s : (d.conversing lib hash paymentFormatKey cfg client allowed).State)
    (more : List Posted) (c : Conversation R) :
    conversation (s.work .gateway more c) = c := by
  simp only [conversation, Dataflow.System.State.work]
  exact Function.update_self _ _ _

/-- The conversation goes on, and what the gateway forwards is published. -/
theorem converses {s : (d.conversing lib hash paymentFormatKey cfg client allowed).State}
    (hreach : (d.conversing lib hash paymentFormatKey cfg client allowed).Reachable s)
    {events : List (Conversation.Event R)} {c : Conversation R}
    (hruns : EventRuns.Runs (Conversation.step cfg router client) allowed (conversation s) events)
    (hrun : run (Conversation.step cfg router client) (conversation s) events = c)
    {new : List (Upload × RawMessage)}
    (hnew : c.forwarded = (conversation s).forwarded ++ new) :
    (d.conversing lib hash paymentFormatKey cfg client allowed).Reachable
      (s.work .gateway (new.map fun p ↦ p.2.posted exchangeRawData) c) := by
  obtain ⟨new', hnew', hworks⟩ := Conversation.exists_worksMany hruns hrun
  obtain rfl := List.append_cancel_left (hnew.symm.trans hnew')
  exact hreach.worksMany .gateway _ c hworks

/-- The conversation goes on, and nothing is forwarded. -/
theorem exists_converses {s : (d.conversing lib hash paymentFormatKey cfg client allowed).State}
    (hreach : (d.conversing lib hash paymentFormatKey cfg client allowed).Reachable s)
    {events : List (Conversation.Event R)} {c : Conversation R}
    (hruns : EventRuns.Runs (Conversation.step cfg router client) allowed (conversation s) events)
    (hrun : run (Conversation.step cfg router client) (conversation s) events = c)
    (hforwarded : c.forwarded = (conversation s).forwarded) :
    ∃ s' : (d.conversing lib hash paymentFormatKey cfg client allowed).State,
      (d.conversing lib hash paymentFormatKey cfg client allowed).Reachable s' ∧
        conversation s' = c ∧ s'.published = s.published := by
  refine ⟨_, converses hreach hruns hrun (hforwarded.trans (List.append_nil _).symm),
    conversation_work s _ c, ?_⟩
  simp only [Dataflow.System.State.work, List.map_nil, List.append_nil, Function.update_eq_self]

/-! ## No session is lost before its uploads are acknowledged -/

variable (lib hash paymentFormatKey d cfg client R)

/-- The pipeline in conversations in which no session is lost before its uploads are
acknowledged. -/
abbrev acknowledging : Dataflow.System Participant Intake Posted :=
  d.conversing lib hash paymentFormatKey cfg client (Conversation.Acknowledged (R := R))

variable {lib hash paymentFormatKey d cfg client R}

/-- **The pipeline in conversation refines the pipeline.** What holds of the messages and the
workers in all reachable states of the one holds of them in all reachable states of the other. -/
theorem exists_pipeline {s : (d.acknowledging lib hash paymentFormatKey cfg client R).State}
    (hreach : (d.acknowledging lib hash paymentFormatKey cfg client R).Reachable s) :
    ∃ t : (d.pipeline lib hash paymentFormatKey cfg client).State,
      (d.pipeline lib hash paymentFormatKey cfg client).Reachable t ∧ t.published = s.published ∧
        t.arrived = s.arrived ∧
        ∀ c, Matches lib hash paymentFormatKey d cfg client Conversation.Acknowledged
          (Conversation.HasForwarded router cfg client) c (s.state c) (t.state c) := by
  refine Dataflow.System.exists_reachable_of_refines (fun c ↦ ?_) hreach
  cases c with
  | gateway => exact Conversation.refines_component
  | stateless kind => exact .refl _
  | stateful kind => exact .refl _
  | sideInput kind => exact .refl _

/-- **And the other way around**: the pipeline does nothing that it could not do in conversation
with a client that loses no session. -/
theorem exists_acknowledging {t : (d.pipeline lib hash paymentFormatKey cfg client).State}
    (hreach : (d.pipeline lib hash paymentFormatKey cfg client).Reachable t) (R : Type) :
    ∃ s : (d.acknowledging lib hash paymentFormatKey cfg client R).State,
      (d.acknowledging lib hash paymentFormatKey cfg client R).Reachable s ∧
        s.published = t.published ∧ s.arrived = t.arrived ∧
        ∀ c, Matches lib hash paymentFormatKey d cfg client Conversation.Acknowledged
          (fun s k ↦ Conversation.Serves router cfg client k s) c (s.state c) (t.state c) := by
  refine @Dataflow.System.exists_reachable_of_refines _ _ _
    (d.acknowledging lib hash paymentFormatKey cfg client R) _ _
    (d.component lib hash paymentFormatKey cfg client) (fun c t s ↦ Matches lib hash
      paymentFormatKey d cfg client Conversation.Acknowledged
      (fun s k ↦ Conversation.Serves router cfg client k s) c s t) (fun c ↦ ?_) t hreach
  cases c with
  | gateway => exact Conversation.component_refines
  | stateless kind => exact (Dataflow.Component.Refines.refl _).congr fun _ _ ↦ eq_comm
  | stateful kind => exact (Dataflow.Component.Refines.refl _).congr fun _ _ ↦ eq_comm
  | sideInput kind => exact (Dataflow.Component.Refines.refl _).congr fun _ _ ↦ eq_comm

end Deployment

end MoneyLaundering
