import MoneyLaundering.Joins.Steps

/-!
# Runs keep what holds of a client

A step of the worker either is one of the steps of a client or leaves the client alone, so that what
holds of a client, `Local.Joined`, holds in every state of every run (`joined_of_crashReachable`).
The only step that could touch a second client is the signal that starts a drain, since there is one
drain for all; `Orderly` says that then nothing else is being drained.
-/

namespace MoneyLaundering

open WriteAhead SideInputWorker

variable {w : SideInputWorker} {x : SideInputs w} {client : ClientId}

namespace SideProcess

/-- What holds of a client and of its records in the log. -/
structure Joined (x : SideInputs w) (client : ClientId) (s : SideProcess w) : Prop where
  part : (s.part client).Joined x client
  log_sane : ∀ r ∈ KeyedLog.ofKey client s.store.log, r.Sane x.announced

theorem joined_init : Joined x client (init w) where
  part :=
    { sane := sane_emptyFlow
      replayed := rfl
      plain := by simp [Local.records, SideProcess.part, init]
      nodup_main := by simp [Local.records, SideProcess.part, init]
      nodup_side := by simp [Local.records, SideProcess.part, init]
      progress := .idle rfl
      spilled := by simp [SideProcess.part, init]
      complete := by simp [SideProcess.part, init]
      entries := by simp [SideProcess.part, init]
      drained := fun _ ↦ Or.inl rfl
      covered := by simp [Local.records, SideProcess.part, init]
      published := by simp [SideProcess.part, init] }
  log_sane := by simp [init]

variable {s s' : SideProcess w} {feed : SideFeed w} {client' : ClientId} {delivery : SideDelivery w}
  {es : List (SideEff w)}

theorem handler_part (h : s.handling = some ⟨client', delivery, es⟩) (client : ClientId) :
    (s.part client).handler = if client' = client then some (delivery, es) else none := by
  by_cases hc : client' = client <;> simp [SideProcess.part, h, Option.filter, hc]

theorem drain_part {entries : Option (List (MessageId × w.Payload))}
    (h : s.draining = some ⟨client', entries⟩) (client : ClientId) :
    (s.part client).drain = if client' = client then some entries else none := by
  by_cases hc : client' = client <;> simp [SideProcess.part, h, Option.filter, hc]

/-- After a compaction the log says what memory holds. -/
theorem durable_of_compacts {mem : ClientId → SideFlow w.Table}
    {log : List (ClientId × SideRecord w.SideDelta)} (hcompacts : w.discipline.Compacts mem log)
    {e : ℤ} (hsane : (mem client).Sane e) :
    w.sideObservation.durable log client = (mem client).observe ∧
      ∀ r ∈ KeyedLog.ofKey client log, r.Sane e := by
  refine ⟨w.sideObservation.durable_of_compacts hcompacts client hsane.settled, fun r hr ↦ ?_⟩
  obtain ⟨order, hnodup, horder, hall⟩ := hcompacts
  have hkey := KeyedLog.ofKey_of_forall₂ (fun c r ↦ w.discipline.Snap (mem c) r) hnodup hall client
  by_cases hmem : client ∈ order
  · rw [if_pos hmem] at hkey
    obtain ⟨r', rfl, hlog⟩ := hkey
    rw [hlog, List.mem_singleton] at hr
    subst hr
    exact ⟨hsane.expected_eq, (horder client).mp hmem⟩
  · rw [if_neg hmem] at hkey
    rw [hkey] at hr
    exact absurd hr List.not_mem_nil

/-! ## One drain at a time -/

/-- The handler will not signal that a client is ready. -/
def Quiet (es : List (SideEff w)) : Prop := .publish .drain ∉ es

/-- The threads are started before a message is handled, and a handler that will signal does so last
and when there is no drain. -/
structure Orderly (s : SideProcess w) : Prop where
  idle : s.starting ≠ none → s.handling = none
  signal : ∀ h, s.handling = some h → Quiet h.rest ∨ s.draining = none ∧ Quiet h.rest.dropLast

/-- The main thread never signals, and the side thread does so last. -/
theorem quiet_of_handle {flow flow' : SideFlow w.Table} (client : ClientId)
    (h : handle client flow delivery = some (flow', es)) :
    Quiet es ∨ delivery.IsSide ∧ Quiet es.dropLast := by
  cases delivery with
  | main message =>
    refine Or.inl ?_
    rw [handle, handleMessage] at h
    split at h
    · obtain ⟨-, rfl⟩ := Prod.ext_iff.mp (Option.some.inj h)
      exact List.not_mem_nil
    · cases message with
      | data mid payload =>
        obtain ⟨es', hes', heq⟩ := Option.map_eq_some_iff.mp h
        obtain ⟨-, rfl⟩ := Prod.ext_iff.mp heq
        rw [handleDataMessage] at hes'
        split at hes'
        · obtain ⟨m, -, rfl⟩ := Option.map_eq_some_iff.mp hes'
          simp [Quiet]
        · obtain rfl := Option.some.inj hes'
          simp [Quiet]
      | eof mid eof =>
        obtain ⟨-, rfl⟩ := Prod.ext_iff.mp (Option.some.inj h)
        cases hcleanup : isCleanupEof eof <;>
          simp [Quiet, handleEofMessage, cleanupFlow, hcleanup]
  | side message =>
    rw [handle, handleSideMessage] at h
    split at h
    · obtain ⟨-, rfl⟩ := Prod.ext_iff.mp (Option.some.inj h)
      exact Or.inl List.not_mem_nil
    · refine Or.inr ⟨trivial, ?_⟩
      cases message with
      | batch mid payload =>
        obtain ⟨delta, -, heq⟩ := Option.map_eq_some_iff.mp h
        obtain ⟨-, rfl⟩ := Prod.ext_iff.mp heq
        simp only
        split <;> simp [Quiet]
      | eof mid eof =>
        rw [acceptSideMessage] at h
        split at h
        · obtain ⟨-, rfl⟩ := Prod.ext_iff.mp (Option.some.inj h)
          simp [Quiet, cleanupFlow]
        · obtain ⟨-, rfl⟩ := Prod.ext_iff.mp (Option.some.inj h)
          simp only
          split <;> simp [Quiet]

theorem quiet_of_cons {e : SideEff w}
    (h : Quiet (e :: es) ∨ s.draining = none ∧ Quiet (e :: es).dropLast) :
    Quiet es ∨ s.draining = none ∧ Quiet es.dropLast := by
  rcases h with hquiet | ⟨hnone, hquiet⟩
  · exact Or.inl fun hmem ↦ hquiet (List.mem_cons_of_mem e hmem)
  · cases es with
    | nil => exact Or.inl List.not_mem_nil
    | cons e' es =>
      refine Or.inr ⟨hnone, fun hmem ↦ hquiet ?_⟩
      rw [List.dropLast_cons_of_ne_nil (List.cons_ne_nil e' es)]
      exact List.mem_cons_of_mem e hmem

theorem Orderly.step (h : Orderly s) (hstep : Step feed s s') : Orderly s' := by
  have hbusy : ∀ {client' : ClientId} {delivery : SideDelivery w} {es : List (SideEff w)},
      s.handling = some ⟨client', delivery, es⟩ → s.starting = none := by
    intro client' delivery es hhandling
    by_contra hne
    exact absurd (hhandling.symm.trans (h.idle hne)) (Option.some_ne_none _)
  cases hstep with
  | @enter client' delivery flow es hstarted hfree hfeed hthread hlock hhandle =>
    refine ⟨fun hne ↦ absurd hstarted hne, fun h' hh' ↦ ?_⟩
    obtain rfl := Option.some.inj hh'
    exact (quiet_of_handle client' hhandle).imp_right fun ⟨hside, hquiet⟩ ↦ ⟨hthread hside, hquiet⟩
  | @perform client' delivery o es hhandling =>
    have hsignal := h.signal _ hhandling
    cases o with
    | result m =>
      exact ⟨fun hne ↦ absurd (hbusy hhandling) hne,
        fun h' hh' ↦ Option.some.inj hh' ▸ quiet_of_cons hsignal⟩
    | spill mid payload =>
      exact ⟨fun hne ↦ absurd (hbusy hhandling) hne,
        fun h' hh' ↦ Option.some.inj hh' ▸ quiet_of_cons hsignal⟩
    | drain =>
      refine ⟨fun hne ↦ absurd (hbusy hhandling) hne, fun h' hh' ↦ Or.inl ?_⟩
      obtain rfl := Option.some.inj hh'
      -- the signal is the last thing that a handler does
      rcases hsignal with hquiet | ⟨-, hquiet⟩
      · exact absurd List.mem_cons_self hquiet
      · cases es with
        | nil => exact List.not_mem_nil
        | cons e es =>
          rw [List.dropLast_cons_of_ne_nil (List.cons_ne_nil e es)] at hquiet
          exact absurd List.mem_cons_self hquiet
    | discard =>
      exact ⟨fun hne ↦ absurd (hbusy hhandling) hne,
        fun h' hh' ↦ Option.some.inj hh' ▸ quiet_of_cons hsignal⟩
    | finalEof mid eof =>
      exact ⟨fun hne ↦ absurd (hbusy hhandling) hne,
        fun h' hh' ↦ Option.some.inj hh' ▸ quiet_of_cons hsignal⟩
  | @append client' delivery r es hhandling =>
    exact ⟨fun hne ↦ absurd (hbusy hhandling) hne,
      fun h' hh' ↦ Option.some.inj hh' ▸ quiet_of_cons (h.signal _ hhandling)⟩
  | @keep client' delivery flow es hhandling =>
    exact ⟨fun hne ↦ absurd (hbusy hhandling) hne,
      fun h' hh' ↦ Option.some.inj hh' ▸ quiet_of_cons (h.signal _ hhandling)⟩
  | @compact client' delivery flow es log hhandling hcompacts =>
    exact ⟨fun hne ↦ absurd (hbusy hhandling) hne,
      fun h' hh' ↦ Option.some.inj hh' ▸ quiet_of_cons (h.signal _ hhandling)⟩
  | @leave client' delivery hhandling =>
    exact ⟨fun _ ↦ rfl, fun h' hh' ↦ absurd hh'.symm (Option.some_ne_none h')⟩
  | @openSpill client' hdraining hreleased hlock =>
    refine ⟨h.idle, fun h' hh' ↦ (h.signal h' hh').imp_right fun ⟨hnone, _⟩ ↦ ?_⟩
    exact absurd (hdraining.symm.trans hnone) (Option.some_ne_none _)
  | @emitEntry client' e entries m hdraining hemit =>
    refine ⟨h.idle, fun h' hh' ↦ (h.signal h' hh').imp_right fun ⟨hnone, _⟩ ↦ ?_⟩
    exact absurd (hdraining.symm.trans hnone) (Option.some_ne_none _)
  | @closeSpill client' hdraining =>
    exact ⟨h.idle, fun h' hh' ↦ (h.signal h' hh').imp_right fun ⟨_, hquiet⟩ ↦ ⟨rfl, hquiet⟩⟩
  | @next client' clients hstarting hdrained =>
    have hidle := h.idle (by rw [hstarting]; exact Option.some_ne_none _)
    exact ⟨fun _ ↦ hidle, fun h' hh' ↦ absurd (hidle.symm.trans hh').symm (Option.some_ne_none h')⟩
  | @start hstarting hdrained =>
    exact ⟨fun hne ↦ absurd rfl hne, h.signal⟩

/-! ## Every step -/

/-- What an output does to a client. -/
theorem part_perform (s : SideProcess w) (client : ClientId) (o : SideOutput w) :
    (s.perform client o).part client = (s.part client).perform o := by
  cases o <;> simp [SideProcess.perform, SideProcess.publish, setSpill, Local.perform,
    SideProcess.part, Option.filter]

/-- What an output does to the other clients: nothing, since nobody is drained when it signals. -/
theorem part_perform_of_ne {o : SideOutput w} (hc : client' ≠ client)
    (hdrain : o = .drain → s.draining = none) :
    (s.perform client' o).part client = s.part client := by
  cases o with
  | drain =>
    have hnone := hdrain rfl
    simp [SideProcess.perform, SideProcess.part, Option.filter, hc, hnone,
      Function.update_of_ne (Ne.symm hc)]
  | result m =>
    simp [SideProcess.perform, SideProcess.publish, SideProcess.part,
      Function.update_of_ne (Ne.symm hc)]
  | spill mid payload =>
    simp [SideProcess.perform, setSpill, SideProcess.part, Function.update_of_ne (Ne.symm hc)]
  | discard =>
    simp [SideProcess.perform, setSpill, SideProcess.part, Function.update_of_ne (Ne.symm hc)]
  | finalEof mid eof => rfl

theorem part_handling (h : s.handling = some ⟨client', delivery, es⟩) (es' : List (SideEff w))
    (client : ClientId) :
    { s with handling := some ⟨client', delivery, es'⟩ }.part client
      = if client' = client then { s.part client with handler := some (delivery, es') }
        else s.part client := by
  by_cases hc : client' = client <;> simp [SideProcess.part, h, Option.filter, hc]

theorem store_perform (s : SideProcess w) (client : ClientId) (o : SideOutput w) :
    (s.perform client o).store = s.store := by
  cases o <;> rfl

/-- At a checkpoint, memory and log agree about every client. -/
theorem Joined.observe_eq (h : Joined x client s) {flow : SideFlow w.Table}
    (hhandling : s.handling = some ⟨client', delivery, .checkpoint flow :: es⟩) :
    (s.part client).flow.observe = (s.part client).logged := by
  have hhandler := handler_part hhandling client
  by_cases hc : client' = client
  · rw [if_pos hc] at hhandler
    exact (hhandler ▸ h.part.progress).checkpoint.2
  · rw [if_neg hc] at hhandler
    refine h.part.progress.observe_eq fun delivery' es' hsome ↦ ?_
    exact absurd (hhandler.symm.trans hsome).symm (Option.some_ne_none _)

/-- **A step of the worker is a step of the client, or leaves the client alone.** -/
theorem Joined.part_step (horderly : Orderly s) (h : Joined x client s) (hstep : Step feed s s') :
    s'.part client = s.part client ∨ Local.Step feed client (s.part client) (s'.part client) := by
  cases hstep with
  | @enter client' delivery flow es hstarted hfree hfeed hthread hlock hhandle =>
    by_cases hc : client' = client
    · subst hc
      have hidle : (s.part client').handler = none := by simp [SideProcess.part, hfree]
      have hside : delivery.IsSide → (s.part client').drain = none := fun hside ↦ by
        simp [SideProcess.part, hthread hside]
      refine Or.inr ?_
      convert Local.Step.enter hidle hfeed hside hhandle using 1
      simp [SideProcess.part, Option.filter]
    · -- the handler is that of another client
      refine Or.inl ?_
      simp [SideProcess.part, Option.filter, hc, hfree, Function.update_of_ne (Ne.symm hc)]
  | @perform client' delivery o es hhandling =>
    have hhandler := handler_part hhandling client
    by_cases hc : client' = client
    · subst hc
      rw [if_pos rfl] at hhandler
      refine Or.inr ?_
      rw [part_perform, part_handling hhandling, if_pos rfl]
      convert Local.Step.perform hhandler using 1
      cases o <;> rfl
    · refine Or.inl ?_
      rw [part_perform_of_ne hc, part_handling hhandling, if_neg hc]
      rintro rfl
      exact ((horderly.signal _ hhandling).resolve_left fun hquiet ↦ hquiet List.mem_cons_self).1
  | @append client' delivery r es hhandling =>
    have hhandler := handler_part hhandling client
    by_cases hc : client' = client
    · subst hc
      rw [if_pos rfl] at hhandler
      refine Or.inr ?_
      convert Local.Step.append hhandler using 1
      simp [SideProcess.part, SideProcess.append, Local.append, Option.filter,
        View.durable_append_self, sideObservation]
    · refine Or.inl ?_
      simp [SideProcess.part, SideProcess.append, Option.filter, hhandling, hc,
        View.durable_append_of_ne _ hc, Function.update_of_ne (Ne.symm hc)]
  | @keep client' delivery flow es hhandling =>
    have hhandler := handler_part hhandling client
    rw [part_handling hhandling]
    by_cases hc : client' = client
    · rw [if_pos hc] at hhandler ⊢
      exact Or.inr (.checkpoint hhandler)
    · exact Or.inl (if_neg hc)
  | @compact client' delivery flow es log hhandling hcompacts =>
    have hhandler := handler_part hhandling client
    -- a compaction writes what the memory says, which is what the log says
    have hlogged := (durable_of_compacts hcompacts h.part.sane).1.trans (h.observe_eq hhandling)
    have hpart : { s with
        store := ⟨s.store.mem, log⟩
        handling := some ⟨client', delivery, es⟩ }.part client
        = { s with handling := some ⟨client', delivery, es⟩ }.part client := by
      simp only [SideProcess.part] at hlogged ⊢
      rw [hlogged]
    rw [hpart, part_handling hhandling]
    by_cases hc : client' = client
    · rw [if_pos hc] at hhandler ⊢
      exact Or.inr (.checkpoint hhandler)
    · exact Or.inl (if_neg hc)
  | @leave client' delivery hhandling =>
    have hhandler := handler_part hhandling client
    by_cases hc : client' = client
    · rw [if_pos hc] at hhandler
      refine Or.inr ?_
      convert Local.Step.leave hhandler using 1
      simp [SideProcess.part, hc]
    · refine Or.inl ?_
      simp [SideProcess.part, hhandling, hc, Option.filter]
  | @openSpill client' hdraining hreleased hlock =>
    have hdrain := drain_part hdraining client
    by_cases hc : client' = client
    · subst hc
      rw [if_pos rfl] at hdrain
      have hside : ∀ delivery es, (s.part client').handler = some (delivery, es) →
          ¬delivery.IsSide := by
        intro delivery es hhandler
        obtain ⟨h', hh', heq⟩ := Option.map_eq_some_iff.mp hhandler
        obtain ⟨rfl, -⟩ := Prod.ext_iff.mp heq
        exact hreleased h' (Option.filter_eq_some_iff.mp hh').1
      refine Or.inr ?_
      convert Local.Step.openSpill hdrain hside using 1
      simp [SideProcess.part, Option.filter]
    · refine Or.inl ?_
      simp [SideProcess.part, hdraining, hc, Option.filter]
  | @emitEntry client' e entries m hdraining hemit =>
    have hdrain := drain_part hdraining client
    by_cases hc : client' = client
    · subst hc
      rw [if_pos rfl] at hdrain
      refine Or.inr ?_
      convert Local.Step.emitEntry hdrain hemit using 1
      simp [SideProcess.part, SideProcess.publish, Local.perform, Option.filter]
    · refine Or.inl ?_
      simp [SideProcess.part, SideProcess.publish, hdraining, hc, Option.filter,
        Function.update_of_ne (Ne.symm hc)]
  | @closeSpill client' hdraining =>
    have hdrain := drain_part hdraining client
    by_cases hc : client' = client
    · subst hc
      rw [if_pos rfl] at hdrain
      refine Or.inr ?_
      convert Local.Step.closeSpill hdrain using 1
      simp [SideProcess.part, setSpill]
    · refine Or.inl ?_
      simp [SideProcess.part, setSpill, hdraining, hc, Option.filter,
        Function.update_of_ne (Ne.symm hc)]
  | @next client' clients hstarting hdrained =>
    by_cases hc : client' = client
    · subst hc
      -- after a restart the clients that are ready are drained one after the other
      have hwaits : (s.part client').Waits := ⟨_, hstarting, List.mem_cons_self⟩
      have hdrain : (s.part client').drain = none := by simp [SideProcess.part, hdrained]
      refine Or.inr ?_
      convert Local.Step.next hwaits hdrain (client' ∈ clients) using 1
      simp [SideProcess.part, Option.filter]
    · refine Or.inl ?_
      simp [SideProcess.part, hdrained, hstarting, hc, Option.filter, Ne.symm hc]
  | @start hstarting hdrained =>
    refine Or.inl ?_
    simp [SideProcess.part, hstarting]

/-- The records of the client in the log stay sane. -/
theorem Joined.log_sane_step (h : Joined x client s) (hstep : Step feed s s') :
    ∀ r ∈ KeyedLog.ofKey client s'.store.log, r.Sane x.announced := by
  cases hstep with
  | perform => rw [store_perform]; exact h.log_sane
  | @append client' delivery r es hhandling =>
    rw [SideProcess.append, KeyedLog.ofKey_append]
    by_cases hc : client' = client
    · subst hc
      have hhandler := handler_part hhandling client'
      rw [if_pos rfl] at hhandler
      rw [KeyedLog.ofKey_singleton_self]
      intro r' hr'
      rcases List.mem_append.mp hr' with hr' | hr'
      · exact h.log_sane r' hr'
      · exact List.mem_singleton.mp hr' ▸ (hhandler ▸ h.part.progress).append.plain.sane
    · rw [KeyedLog.ofKey_singleton_of_ne hc, List.append_nil]
      exact h.log_sane
  | compact hhandling hcompacts => exact (durable_of_compacts hcompacts h.part.sane).2
  | enter => exact h.log_sane
  | keep => exact h.log_sane
  | leave => exact h.log_sane
  | openSpill => exact h.log_sane
  | emitEntry => exact h.log_sane
  | closeSpill => exact h.log_sane
  | next => exact h.log_sane
  | start => exact h.log_sane

theorem Joined.step (hforwards : w.Forwards) (hsends : feed.Sends client x) (horderly : Orderly s)
    (h : Joined x client s) (hstep : Step feed s s') : Joined x client s' := by
  refine ⟨?_, h.log_sane_step hstep⟩
  rcases h.part_step horderly hstep with heq | hlocal
  · exact heq ▸ h.part
  · exact h.part.step hforwards hsends hlocal

/-- A crash of the worker is one of the client. -/
theorem Joined.part_crash (h : Joined x client s) (hcrash : Crash s s') :
    Local.Crash x.announced (s.part client) (s'.part client) ∧
      ∀ r ∈ KeyedLog.ofKey client s'.store.log, r.Sane x.announced := by
  cases hcrash with
  | @restart store clients hrestarts hclients =>
    obtain ⟨hmem, hcompacts⟩ := hrestarts
    have hsane : (store.mem client).Sane x.announced := by
      rw [hmem]
      exact sane_recovered h.log_sane
    have hobserve : (store.mem client).observe = (s.part client).logged := by
      rw [hmem]
      rfl
    obtain ⟨hlogged, hlog⟩ := durable_of_compacts hcompacts hsane
    refine ⟨?_, hlog⟩
    convert Local.Crash.restart hsane hobserve using 1
    simp only [SideProcess.part] at hobserve ⊢
    simp [hlogged, hobserve, hclients]

theorem orderly_init : Orderly (init w) where
  idle := fun hne ↦ absurd rfl hne
  signal := fun h hh ↦ absurd hh.symm (Option.some_ne_none h)

theorem Orderly.crash (hcrash : Crash s s') : Orderly s' := by
  cases hcrash with
  | restart hrestarts hclients =>
    exact ⟨fun _ ↦ rfl, fun h hh ↦ absurd hh.symm (Option.some_ne_none h)⟩

/-- **What holds of a client in every state of every run.** -/
theorem joined_of_crashReachable (hforwards : w.Forwards) (hsends : feed.Sends client x)
    (hreach : CrashReachable feed s) : Orderly s ∧ Joined x client s := by
  induction hreach with
  | refl => exact ⟨orderly_init, joined_init⟩
  | tail _ hstep ih =>
    rcases hstep with hstep | hcrash
    · exact ⟨ih.1.step hstep, ih.2.step hforwards hsends ih.1 hstep⟩
    · obtain ⟨hlocal, hlog⟩ := ih.2.part_crash hcrash
      exact ⟨Orderly.crash hcrash, ih.2.part.crash_step hlocal, hlog⟩

theorem Reachable.crashReachable (h : Reachable feed s) : CrashReachable feed s :=
  Relation.ReflTransGen.mono (fun _ _ ↦ Or.inl) _ _ h

end SideProcess

end MoneyLaundering
