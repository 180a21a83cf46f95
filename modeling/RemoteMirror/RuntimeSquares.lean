/-
**Crossing messages of one runtime connection commute.**

A message of the client and a message of the server that the runtime machine would both accept in
the same phase lead to the same phase in either order, unless the message of the server is the last
one of the connection; then the machine accepts it after the message of the client as well.  The
proof goes through the two step relations `ClientStep` and `ServerStep`, which say everything a
message of each party can do.

Main definitions:

* `Runtime.accept` — validation and transition as one partial function;
* `Runtime.ClientStep`, `Runtime.ServerStep` — the transitions by party.

Main results:

* `Runtime.applyRunningMessage_square`,
  `Runtime.applyWatchMessage_square` — the squares of a process and of a watch;
* `Runtime.diamond` — **the runtime machine has the squares `Crossing` asks for**.
-/

import RemoteMirror.Crossing
import RemoteMirror.RuntimeMachine

namespace RemoteMirror.Runtime

open Checks RuntimeProcessState

/-! ### Squares of a process and of a watch -/

section Squares

variable {process : RuntimeProcessState} {watch : RuntimeWatchState} {id n : ℕ}
  {stream : RuntimeOutputStream}
  {b : RuntimeMessage} {pa pb : RuntimeProcessState} {ended : Bool}

/-- An acknowledgement of output and a message of the server commute: the server only ever moves
the sent offset of a stream forward. -/
theorem ServerMove.crosses_outputAck (hpa : ClientMove process (.outputAck id stream n) pa)
    (hpb : ServerMove process b pb ended) :
    ∃ q, ServerMove pa b q ended ∧ ClientMove pb (.outputAck id stream n) q := by
  cases hpa with
  | outputAck own gap carries acked le =>
    cases hpb with
    | inputAck own' acked' le' =>
      refine ⟨_, .inputAck (by simpa using own') (by simpa using acked') (by simpa using le'), ?_⟩
      cases stream <;> exact .outputAck own gap carries acked le
    | @output _ n' next other data own' _ carries' at_next add =>
      have hgrow : n' ≤ next := le_of_checkedAdd add
      have said : ServerMove (process.setOffsets stream { process.offsets stream with acked := n })
          _ _ _ :=
        .output (by simpa using own') (by simpa using gap) (by simpa using carries')
          (by rw [offsets_setOffsets]; split <;> simp_all) add
      have heard : ClientMove (process.setOffsets other { process.offsets other with next })
          (.outputAck id stream n) _ :=
        .outputAck (by simpa using own) (by simpa using gap) (by simpa using carries)
          (by rw [offsets_setOffsets]; split <;> simp_all)
          (by rw [offsets_setOffsets]; split <;> simp_all; omega)
      refine ⟨_, said, ?_⟩
      by_cases hs : other = stream
      · subst hs
        simpa [offsets_setOffsets, setOffsets_setOffsets] using heard
      · have hs' : stream ≠ other := fun h => hs h.symm
        rw [setOffsets_comm _ _ _ _ _ hs']
        simpa [offsets_setOffsets, hs, hs'] using heard
    | outputGap _ _ gap' => exact nomatch gap.symm.trans gap'
    | exited own' => exact ⟨_, .exited (by simpa using own'), .outputAck own gap carries acked le⟩

variable {a : RuntimeMessage}

/-- **A message of the client and one of the server about the same process commute.** -/
theorem applyRunningMessage_square {ended' : Bool} (ha : a.sender = .client)
    (hpa : applyRunningMessage process a = .ok (pa, ended'))
    (hpb : applyRunningServerMessage process b = .ok (pb, ended)) :
    ∃ q, applyRunningServerMessage pa b = .ok (q, ended) ∧ applyRunningMessage pb a =
      .ok (q, ended') := by
  simp only [applyRunningMessage_iff ha, applyRunningServerMessage_iff] at hpa hpb ⊢
  obtain ⟨hpa, rfl⟩ := hpa
  obtain ⟨hid, hpty, hsession, hsent, hclosed⟩ := hpb.keeps
  suffices ∃ q, ServerMove pa b q ended ∧ ClientMove pb a q from
    this.imp fun _ ⟨said, heard⟩ => ⟨said, heard, rfl⟩
  cases hpa with
  | input own opened at_sent add =>
    refine ⟨_, hpb.setInput process.inputClosed (at_sent ▸ le_of_checkedAdd add), ?_⟩
    rw [setInput, ← hclosed]
    exact .input (hid.trans own) (hclosed.trans opened) (hsent.trans at_sent) add
  | closeInput own opened at_sent =>
    refine ⟨_, hpb.setInput true (Nat.le_refl _), ?_⟩
    rw [setInput, ← hsent]
    exact .closeInput (hid.trans own) (hclosed.trans opened) (hsent.trans at_sent)
  | outputAck own gap carries acked le =>
    exact hpb.crosses_outputAck (.outputAck own gap carries acked le)
  | resize own pty => exact ⟨pb, hpb, .resize (hid.trans own) (hpty.trans pty)⟩
  | signal own => exact ⟨pb, hpb, .signal (hid.trans own)⟩
  | detach own pty session =>
    exact ⟨pb, hpb, .detach (hid.trans own) (hpty.trans pty) (hsession ▸ session)⟩

/-- **An acknowledgement of the client and a valid message of the server about the same watch
commute.** -/
theorem applyWatchMessage_square {wa wb : RuntimeWatchState} (ha : a.sender = .client)
    (hv : b.validate = .ok ()) (hwa : applyWatchMessage watch a = .ok wa)
    (hwb : applyWatchServerMessage watch b = .ok wb) :
    ∃ q, applyWatchServerMessage wa b = .ok q ∧ applyWatchMessage wb a = .ok q := by
  obtain ⟨id, n, rfl⟩ := applyWatchMessage_cases ha hwa
  obtain ⟨hid, hacked, hle, rfl⟩ := applyWatchMessage_watchAck.1 hwa
  obtain ⟨hid', hacked', hnext⟩ := applyWatchServerMessage_mono hv hwb
  refine ⟨_, applyWatchServerMessage_acked n hwb,
    applyWatchMessage_watchAck.2 ⟨hid'.trans hid, ?_, Nat.le_trans hle hnext, rfl⟩⟩
  rw [hacked']
  exact hacked

end Squares

/-! ### The transitions by party -/

/-- The transitions on a message of the client. -/
inductive ClientStep : RuntimePhase → RuntimeMessage → RuntimePhase → Prop
  | hello {a : RuntimeMessage} {capability : RuntimeCapability} :
      ClientStep .awaitClientHello a (.awaitServerHello capability)
  | request {a : RuntimeMessage} {capability : RuntimeCapability} {q : RuntimePhase} :
      q ≠ .closed → ClientStep (.ready capability) a q
  | running {a : RuntimeMessage} {process pa : RuntimeProcessState} :
      applyRunningMessage process a = .ok (pa, false) →
      ClientStep (.running process) a (afterClient a pa)
  | detaching {id n : ℕ} {stream : RuntimeOutputStream} {process pa : RuntimeProcessState} :
      applyRunningMessage process (.outputAck id stream n) = .ok (pa, false) →
      ClientStep (.awaitDetached process) (.outputAck id stream n) (.awaitDetached pa)
  | watchStop {watch : RuntimeWatchState} :
      ClientStep (.watching watch) (.watchStop watch.watchId) (.awaitWatchStopped watch)
  | watching {a : RuntimeMessage} {watch wa : RuntimeWatchState} :
      applyWatchMessage watch a = .ok wa → ClientStep (.watching watch) a (.watching wa)
  | stopping {a : RuntimeMessage} {watch wa : RuntimeWatchState} :
      applyWatchMessage watch a = .ok wa →
      ClientStep (.awaitWatchStopped watch) a (.awaitWatchStopped wa)

/-- The transitions on a message of the server in the phases in which the client may speak. -/
inductive ServerStep : RuntimePhase → RuntimeMessage → RuntimePhase → Prop
  | error {p : RuntimePhase} {e : RuntimeError} : ServerStep p (.error e) .closed
  | running {b : RuntimeMessage} {process pb : RuntimeProcessState} {ended : Bool} :
      applyRunningServerMessage process b = .ok (pb, ended) →
      ServerStep (.running process) b (unlessEnded ended (.running pb))
  | detaching {b : RuntimeMessage} {process pb : RuntimeProcessState} {ended : Bool} :
      applyRunningServerMessage process b = .ok (pb, ended) →
      ServerStep (.awaitDetached process) b (unlessEnded ended (.awaitDetached pb))
  | detached {process : RuntimeProcessState} {session : PtySessionId} :
      process.sessionId = some session →
      ServerStep (.awaitDetached process) (.detached process.processId session) .closed
  | watching {b : RuntimeMessage} {watch wb : RuntimeWatchState} :
      applyWatchServerMessage watch b = .ok wb → ServerStep (.watching watch) b (.watching wb)
  | stopping {b : RuntimeMessage} {watch wb : RuntimeWatchState} :
      applyWatchServerMessage watch b = .ok wb →
      ServerStep (.awaitWatchStopped watch) b (.awaitWatchStopped wb)
  | stopped {watch : RuntimeWatchState} :
      ServerStep (.awaitWatchStopped watch) (.watchStopped watch.watchId) .closed

section Steps

variable {supported : CapabilitySet} {p q : RuntimePhase} {a b : RuntimeMessage}

theorem ne_error_of_client (ha : a.sender = .client) : ∀ e, a ≠ .error e := by
  rintro e rfl
  cases ha

variable {process : RuntimeProcessState}

theorem afterClient_server (hb : b.sender = .server) :
    afterClient b process = .running process := by
  cases b <;> first | rfl | cases hb

theorem afterClient_ne_closed : afterClient a process ≠ .closed := by
  cases a <;> simp [afterClient]

/-- Everything a message of the client can do. -/
theorem ClientStep.of_applyMessage (ha : a.sender = .client)
    (h : applyMessage supported p a = .ok q) : ClientStep p a q := by
  have he : ∀ e, a ≠ .error e := ne_error_of_client ha
  cases p with
  | awaitClientHello =>
    cases a <;> simp_all [applyMessage]
    obtain ⟨-, rfl⟩ := h
    exact .hello
  | awaitServerHello c | awaitProcessStarted c r k | awaitPtyAttached r s k
  | awaitWatchStarted r k =>
    cases a <;> simp_all [applyMessage, RuntimeMessage.sender]
  | ready c =>
    refine .request ?_
    rintro rfl
    cases c <;> cases a <;> simp_all [applyMessage]
  | running process =>
    rw [applyMessage_running he, bind_eq_ok] at h
    obtain ⟨⟨pa, ended⟩, hpa, hq⟩ := h
    obtain rfl := ((applyRunningMessage_iff ha).1 hpa).2
    cases hq
    exact .running hpa
  | awaitDetached process =>
    cases a with
    | outputAck id stream n =>
      rw [applyMessage_awaitDetached_outputAck, bind_eq_ok] at h
      obtain ⟨⟨pa, ended⟩, hpa, hq⟩ := h
      obtain rfl := ((applyRunningMessage_iff ha).1 hpa).2
      cases hq
      exact .detaching hpa
    | _ => simp_all [applyMessage, applyRunningServerMessage, RuntimeMessage.sender]
  | watching watch =>
    by_cases hs : ∃ id, a = .watchStop id
    · obtain ⟨id, rfl⟩ := hs
      obtain ⟨rfl, rfl⟩ := applyMessage_watching_watchStop.1 h
      exact .watchStop
    · rw [applyMessage_watching he (fun id hid => hs ⟨id, hid⟩), bind_eq_ok] at h
      obtain ⟨wa, hwa, hq⟩ := h
      cases hq
      exact .watching hwa
  | awaitWatchStopped watch =>
    have hs : ∀ id, a ≠ .watchStopped id := by
      rintro id rfl
      cases ha
    rw [applyMessage_awaitWatchStopped he hs, bind_eq_ok] at h
    obtain ⟨wa, hwa, hq⟩ := h
    cases hq
    exact .stopping hwa
  | closed => exact absurd h applyMessage_closed

/-- Everything a message of the server can do in a phase in which the client may speak. -/
theorem ServerStep.of_applyMessage {pa : RuntimePhase} (hb : b.sender = .server)
    (h : applyMessage supported p b = .ok q) (hc : ClientStep p a pa) : ServerStep p b q := by
  by_cases herr : ∃ e, b = .error e
  · obtain ⟨e, rfl⟩ := herr
    have hp : p ≠ .closed := by
      rintro rfl
      exact applyMessage_closed h
    rw [applyMessage_error hp] at h
    cases h
    exact .error
  have he : ∀ e, b ≠ .error e := fun e hbe => herr ⟨e, hbe⟩
  cases hc with
  | hello => cases b <;> simp_all [applyMessage, RuntimeMessage.sender]
  | @request _ c _ _ => cases c <;> cases b <;> simp_all [applyMessage, RuntimeMessage.sender]
  | running _ =>
    rw [applyMessage_running he, bind_eq_ok] at h
    obtain ⟨⟨pb, ended⟩, hpb, hq⟩ := h
    rw [applyRunningMessage_server hb] at hpb
    rw [afterClient_server hb] at hq
    cases hq
    exact .running hpb
  | detaching _ =>
    by_cases hd : ∃ id session, b = .detached id session
    · obtain ⟨id, session, rfl⟩ := hd
      obtain ⟨rfl, hsession, rfl⟩ := applyMessage_awaitDetached_detached.1 h
      exact .detached hsession
    · have ho : ∀ id stream n, b ≠ .outputAck id stream n := by
        rintro id stream n rfl
        cases hb
      rw [applyMessage_awaitDetached he (fun i s hbs => hd ⟨i, s, hbs⟩) ho, bind_eq_ok] at h
      obtain ⟨⟨pb, ended⟩, hpb, hq⟩ := h
      cases hq
      exact .detaching hpb
  | watchStop | watching _ =>
    have hs : ∀ id, b ≠ .watchStop id := by
      rintro id rfl
      cases hb
    rw [applyMessage_watching he hs, bind_eq_ok, applyWatchMessage_server hb] at h
    obtain ⟨wb, hwb, hq⟩ := h
    cases hq
    exact .watching hwb
  | stopping _ =>
    by_cases hs : ∃ id, b = .watchStopped id
    · obtain ⟨id, rfl⟩ := hs
      obtain ⟨rfl, rfl⟩ := applyMessage_awaitWatchStopped_watchStopped.1 h
      exact .stopped
    · rw [applyMessage_awaitWatchStopped he (fun i hbs => hs ⟨i, hbs⟩), bind_eq_ok,
        applyWatchMessage_server hb] at h
      obtain ⟨wb, hwb, hq⟩ := h
      cases hq
      exact .stopping hwb

theorem ClientStep.ne_closed (h : ClientStep p a q) : q ≠ .closed := by
  cases h with
  | hello => simp
  | request hq => exact hq
  | running _ => exact afterClient_ne_closed
  | detaching _ => simp
  | watchStop => simp
  | watching _ => simp
  | stopping _ => simp

end Steps

/-! ### The squares of the machine -/

/-- Validation and transition as one partial function. -/
def accept (supported : CapabilitySet) (phase : RuntimePhase) (message : RuntimeMessage) :
    Option RuntimePhase :=
  match message.validate with
  | .ok () => (applyMessage supported phase message).toOption
  | .error _ => none

section Accept

variable {supported : CapabilitySet} {p q : RuntimePhase} {a b : RuntimeMessage}

theorem accept_eq_some :
    accept supported p a = some q ↔ a.validate = .ok () ∧ applyMessage supported p a = .ok q := by
  unfold accept
  split <;> simp_all

theorem accept_of_bind {α : Type} {x : Outcome α} {f : α → RuntimePhase} {r : α}
    (ha : a.validate = .ok ()) (h : applyMessage supported p a = x >>= fun r => .ok (f r))
    (hx : x = .ok r) (hq : f r = q) : accept supported p a = some q := by
  rw [accept_eq_some, h, hx]
  exact ⟨ha, congrArg Except.ok hq⟩

/-- Only a closed connection rejects everything: an open one takes an error. -/
theorem dead_iff : Crossing.Dead (accept supported) p ↔ p = .closed := by
  constructor
  · intro hd
    by_contra hp
    have hv : (RuntimeMessage.error ⟨.internal, "", false⟩).validate = .ok () := by decide
    have hsome : accept supported p (.error ⟨.internal, "", false⟩) = some .closed :=
      accept_eq_some.2 ⟨hv, applyMessage_error hp⟩
    rw [hd] at hsome
    exact absurd hsome (by simp)
  · rintro rfl m
    cases hm : accept supported .closed m with
    | none => rfl
    | some q => exact absurd (accept_eq_some.1 hm).2 applyMessage_closed

variable {pa : RuntimeProcessState} {ended : Bool}

/-- A message of the server about a running process finds the process as the client left it,
whether the client has asked to detach or not. -/
theorem accept_afterClient {q : RuntimeProcessState} (hb : b.sender = .server)
    (hbv : b.validate = .ok ()) (h : applyRunningServerMessage pa b = .ok (q, ended)) :
    accept supported (afterClient a pa) b = some (unlessEnded ended (afterClient a q)) := by
  have he : ∀ e, b ≠ .error e := by
    rintro e rfl
    simp [applyRunningServerMessage] at h
  by_cases hdet : ∃ id, a = .detach id
  · obtain ⟨id, rfl⟩ := hdet
    have hd : ∀ id session, b ≠ .detached id session := by
      rintro id session rfl
      simp [applyRunningServerMessage] at h
    have ho : ∀ id stream n, b ≠ .outputAck id stream n := by
      rintro id stream n rfl
      cases hb
    have hacc : accept supported (.awaitDetached pa) b =
        some (unlessEnded ended (.awaitDetached q)) :=
      accept_of_bind hbv (applyMessage_awaitDetached he hd ho) h rfl
    exact hacc
  · have hrun : ∀ process, afterClient a process = .running process := by
      intro process
      cases a <;> first | rfl | exact absurd ⟨_, rfl⟩ hdet
    have hacc : accept supported (.running pa) b =
        some (unlessEnded ended (afterClient b q)) :=
      accept_of_bind hbv (applyMessage_running he) ((applyRunningMessage_server hb).trans h) rfl
    rw [afterClient_server hb] at hacc
    rw [hrun, hrun]
    exact hacc

variable {process pb : RuntimeProcessState}

/-- The squares on the messages of a running process. -/
theorem square_running (ha : a.sender = .client) (hb : b.sender = .server)
    (hav : a.validate = .ok ())
    (hbv : b.validate = .ok ()) (hpa : applyRunningMessage process a = .ok (pa, false))
    (hpb : applyRunningServerMessage process b = .ok (pb, ended)) :
    (ended = true ∧ accept supported (afterClient a pa) b = some .closed) ∨
      ended = false ∧ ∃ q, accept supported (afterClient a pa) b = some q ∧
        accept supported (.running pb) a = some q := by
  obtain ⟨r, hr, hra⟩ := applyRunningMessage_square ha hpa hpb
  have hacc : accept supported (afterClient a pa) b = some (unlessEnded ended (afterClient a r)) :=
    accept_afterClient hb hbv hr
  cases ended with
  | true => exact .inl ⟨rfl, hacc⟩
  | false =>
    have hback : accept supported (.running pb) a = some (unlessEnded false (afterClient a r)) :=
      accept_of_bind hav (applyMessage_running (ne_error_of_client ha)) hra rfl
    exact .inr ⟨rfl, _, hacc, hback⟩

/-- The squares on acknowledgements that cross the answer to a detach request. -/
theorem square_detaching {id n : ℕ} {stream : RuntimeOutputStream} (hb : b.sender = .server)
    (hbv : b.validate = .ok ()) (hpa : applyRunningMessage process (.outputAck id stream n) =
      .ok (pa, false))
    (hpb : applyRunningServerMessage process b = .ok (pb, ended)) :
    (ended = true ∧ accept supported (.awaitDetached pa) b = some .closed) ∨
      ended = false ∧ ∃ q, accept supported (.awaitDetached pa) b = some q ∧
        accept supported (.awaitDetached pb) (.outputAck id stream n) = some q := by
  obtain ⟨r, hr, hra⟩ := applyRunningMessage_square rfl hpa hpb
  have hacc : accept supported (.awaitDetached pa) b =
      some (unlessEnded ended (.awaitDetached r)) :=
    accept_afterClient (a := .detach 0) hb hbv hr
  cases ended with
  | true => exact .inl ⟨rfl, hacc⟩
  | false =>
    have hback : accept supported (.awaitDetached pb) (.outputAck id stream n) =
        some (unlessEnded false (.awaitDetached r)) :=
      accept_of_bind rfl applyMessage_awaitDetached_outputAck hra rfl
    exact .inr ⟨rfl, _, hacc, hback⟩

variable {watch w : RuntimeWatchState}

/-- A valid message of the server that a watch takes is taken in both phases of a watch. -/
theorem accept_watch (hb : b.sender = .server) (hbv : b.validate = .ok ())
    (h : applyWatchServerMessage watch b = .ok w) : accept supported (.watching watch) b =
      some (.watching w) ∧
      accept supported (.awaitWatchStopped watch) b = some (.awaitWatchStopped w) := by
  have h' : applyWatchMessage watch b = .ok w := (applyWatchMessage_server hb).trans h
  rcases applyWatchServerMessage_cases h with ⟨id, n, events, rfl⟩ | ⟨id, n, m, rfl⟩
  · exact ⟨accept_of_bind hbv (applyMessage_watching (by simp) (by simp)) h' rfl,
      accept_of_bind hbv (applyMessage_awaitWatchStopped (by simp) (by simp)) h' rfl⟩
  · exact ⟨accept_of_bind hbv (applyMessage_watching (by simp) (by simp)) h' rfl,
      accept_of_bind hbv (applyMessage_awaitWatchStopped (by simp) (by simp)) h' rfl⟩

/-- An acknowledgement that a watch takes is taken in both phases of a watch. -/
theorem accept_watchAck (ha : a.sender = .client) (h : applyWatchMessage watch a = .ok w) :
    accept supported (.watching watch) a = some (.watching w) ∧
      accept supported (.awaitWatchStopped watch) a = some (.awaitWatchStopped w) := by
  obtain ⟨id, n, rfl⟩ := applyWatchMessage_cases ha h
  exact ⟨accept_of_bind rfl (applyMessage_watching (by simp) (by simp)) h rfl,
    accept_of_bind rfl (applyMessage_awaitWatchStopped (by simp) (by simp)) h rfl⟩

/-- **The squares of the runtime machine.** -/
theorem diamond (supported : CapabilitySet) :
    Crossing.Diamond (accept supported) (fun m => m.sender = .client)
      (fun m => m.sender = .server) where
  alive := by
    intro p q a ha h hd
    exact (ClientStep.of_applyMessage ha (accept_eq_some.1 h).2).ne_closed (dead_iff.1 hd)
  square := by
    intro p pa pb a b ha hb hpa hpb
    obtain ⟨hav, hpa⟩ := accept_eq_some.1 hpa
    obtain ⟨hbv, hpb⟩ := accept_eq_some.1 hpb
    have hca : ClientStep p a pa := ClientStep.of_applyMessage ha hpa
    have hcb : ServerStep p b pb := ServerStep.of_applyMessage hb hpb hca
    have hdead : Crossing.Dead (accept supported) .closed := dead_iff.2 rfl
    cases hcb with
    | error =>
      exact .inl ⟨hdead, accept_eq_some.2 ⟨hbv, applyMessage_error hca.ne_closed⟩⟩
    | running hrb =>
      cases hca with
      | running hra =>
        rcases square_running ha hb hav hbv hra hrb with ⟨rfl, hq⟩ | ⟨rfl, hq⟩
        · exact .inl ⟨hdead, hq⟩
        · exact .inr hq
    | detaching hrb =>
      cases hca with
      | detaching hra =>
        rcases square_detaching hb hbv hra hrb with ⟨rfl, hq⟩ | ⟨rfl, hq⟩
        · exact .inl ⟨hdead, hq⟩
        · exact .inr hq
    | detached hsession =>
      cases hca with
      | detaching hra =>
        cases ((applyRunningMessage_iff rfl).1 hra).1
        refine .inl ⟨hdead, accept_eq_some.2 ⟨hbv, applyMessage_awaitDetached_detached.2 ?_⟩⟩
        exact ⟨by simp, by simpa using hsession, rfl⟩
    | watching hwb =>
      cases hca with
      | watchStop =>
        -- a stop request does not depend on the sequence numbers
        obtain ⟨hid, -, -⟩ := applyWatchServerMessage_mono hbv hwb
        refine .inr ⟨_, (accept_watch hb hbv hwb).2, accept_eq_some.2 ⟨hav, ?_⟩⟩
        exact applyMessage_watching_watchStop.2 ⟨hid, rfl⟩
      | watching hwa =>
        obtain ⟨q, hq, hqa⟩ := applyWatchMessage_square ha hbv hwa hwb
        exact .inr ⟨_, (accept_watch hb hbv hq).1, (accept_watchAck ha hqa).1⟩
    | stopping hwb =>
      cases hca with
      | stopping hwa =>
        obtain ⟨q, hq, hqa⟩ := applyWatchMessage_square ha hbv hwa hwb
        exact .inr ⟨_, (accept_watch hb hbv hq).2, (accept_watchAck ha hqa).2⟩
    | stopped =>
      cases hca with
      | stopping hwa =>
        obtain ⟨id, n, rfl⟩ := applyWatchMessage_cases ha hwa
        obtain ⟨-, -, -, rfl⟩ := applyWatchMessage_watchAck.1 hwa
        refine .inl ⟨hdead, accept_eq_some.2 ⟨hbv, ?_⟩⟩
        exact applyMessage_awaitWatchStopped_watchStopped.2 ⟨rfl, rfl⟩

end Accept

end RemoteMirror.Runtime
