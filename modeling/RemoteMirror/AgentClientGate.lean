/-
**The handshake gate of the agent client.**

Ordinary requests are meant for agents whose `Hello` answer was checked.  The client remembers the
check in one flag and looks at the flag *before* it selects the worker, so the flag has to speak
about the worker the request ends up with.  Two things can come in between: the other lane can
advance the shared worker generation, and the worker can be gone when the command is sent.  Both
make the client start a new worker and send the ordinary request there at once.

Main definitions:

* `Sidecar.World`, `Sidecar.clientMachine` — the client, its workers, and
  everything that may happen around them;
* `Sidecar.Gated` — every ordinary request was delivered to a validated worker;
* `Sidecar.calm` — neither of the two replacements happens.

Main results:

* `Sidecar.gated_of_calm_run` — **the gate holds in every run without them**;
* `Sidecar.replaced_worker_ungated` — and fails with one generation bump.
-/

import RemoteMirror.AgentClient

namespace RemoteMirror.Sidecar

open Interact
open RemoteMirror.Runtime (packageVersion)

/-! ### The world of a client -/

/-- A worker thread with its child process.  It listens until its receiver is dropped. -/
structure AgentWorker where
  listening : Bool
  queue : List AgentWorkerCommand
  current : Option AgentWorkerCommand
  aborted : Bool
  deriving Repr, DecidableEq

/-- What is written to a worker's process and what the client hears from a worker. -/
inductive Event
  | delivered (w : WorkerId) (request : Request)
  | received (w : WorkerId) (reply : AgentWorkerReply)
  deriving Repr, DecidableEq

/-- The client and what it shares with other threads.  `sentTo` and `log` only record what
happened, newest event first. -/
structure World where
  client : AgentClient
  generation : UInt64
  preemptEpoch : UInt64
  shutdownRequested : Bool
  now : ℕ
  backoff : RemoteBackoffState
  spawned : ℕ
  workers : WorkerId → AgentWorker
  channels : ℕ
  inbox : ChannelId → List (WorkerId × AgentWorkerReply)
  sentTo : ChannelId → Option WorkerId
  log : List Event

/-- What a call leaves open. -/
inductive Choice
  | plain
  | failed (text : String)
  | timeout
  | disconnected
  | teardown (teardown : Teardown)

/-- A worker that has just been started. -/
def AgentWorker.started : AgentWorker := ⟨true, [], none, false⟩

/-- A worker whose thread has ended. -/
def AgentWorker.ended (w : AgentWorker) : AgentWorker := ⟨false, [], none, w.aborted⟩

def World.setWorker (s : World) (w : WorkerId) (worker : AgentWorker) : World :=
  { s with workers := Function.update s.workers w worker }

/-- The steps of the client. -/
def answer (e : Eff) (c : Choice) (s : World) : Option (Ans e × World) :=
  match e with
  | .client => some (s.client, s)
  | .update f => some ((), { s with client := f s.client })
  | .now => some (s.now, s)
  | .sleep duration => some ((), { s with now := s.now + duration })
  | .isShutdownRequested => some (s.shutdownRequested, s)
  | .loadGeneration => some (s.generation, s)
  | .bumpGeneration => some ((), { s with generation := s.generation + 1 })
  | .preemptEpoch => some (s.preemptEpoch, s)
  | .backoff f => some ((s.now, s.backoff), { s with backoff := f s.now s.backoff })
  -- the host description is only read by `spawn_worker`, whose failures are free anyway
  | .invalidateRemoteHostInfo => some ((), s)
  | .spawnWorker _ =>
    match c with
    | .failed text => some (.error text, s)
    | _ => some (.ok s.spawned,
        { s.setWorker s.spawned .started with spawned := s.spawned + 1 })
  | .abort w => some ((), s.setWorker w { s.workers w with aborted := true })
  | .teardown _ =>
    match c with
    | .teardown teardown => some (teardown, s)
    | _ => some (.running, s)
  | .channel => some (s.channels, { s with channels := s.channels + 1 })
  | .send w command =>
    if (s.workers w).listening then
      some (true, { s.setWorker w
        { s.workers w with queue := (s.workers w).queue ++ [command] } with
          sentTo := Function.update s.sentTo command.reply (some w) })
    else some (false, s)
  | .recvTimeout reply wait =>
    match c with
    | .timeout => some (.timeout, { s with now := s.now + wait })
    | .disconnected => some (.disconnected, s)
    | _ =>
      match s.inbox reply with
      | (w, r) :: rest => some (.reply r,
          { s with inbox := Function.update s.inbox reply rest, log := .received w r :: s.log })
      | [] => none

/-- What happens around the client: time passes, the other lane and the editor interfere, and
workers take commands, answer and end as they like. -/
inductive EnvMove
  | tick (duration : ℕ)
  | bumpGeneration
  | preempt
  | requestShutdown
  | backoff (backoff : RemoteBackoffState)
  /-- A worker takes its next command; `written` if it got as far as writing the request. -/
  | take (w : WorkerId) (written : Bool)
  | respond (w : WorkerId) (reply : AgentWorkerReply)
  | ends (w : WorkerId)

def envMove (m : EnvMove) (s : World) : Option World :=
  match m with
  | .tick duration => some { s with now := s.now + duration }
  | .bumpGeneration => some { s with generation := s.generation + 1 }
  | .preempt => some { s with preemptEpoch := s.preemptEpoch + 1 }
  | .requestShutdown => some { s with shutdownRequested := true }
  | .backoff backoff => some { s with backoff := backoff }
  | .take w written =>
    match (s.workers w).queue, (s.workers w).current with
    | command :: rest, none =>
      some { s.setWorker w { s.workers w with queue := rest, current := some command } with
        log := if written then .delivered w command.request :: s.log else s.log }
    | _, _ => none
  | .respond w reply =>
    match (s.workers w).current with
    | some command =>
      some { s.setWorker w (if reply.terminal then (s.workers w).ended
          else { s.workers w with current := none }) with
        inbox := Function.update s.inbox command.reply
          (s.inbox command.reply ++ [(w, reply)]) }
    | none => none
  | .ends w => some (s.setWorker w (s.workers w).ended)

/-- What callers ask of the client. -/
inductive Job
  | request (request : Request)
  | requestWithTimeout (request : Request) (timeout : ℕ)
  | requestMaybePreemptibleSince (request : Request) (preemptEpoch : UInt64)
  | requestMaybePreemptibleSinceWithTimeout (request : Request) (preemptEpoch : UInt64)
      (timeout : ℕ)
  | shutdown
  | killWorker
  | killWorkerWithTimeout (timeout : ℕ) (context : String)
  | invalidateSharedWorkersWithTimeout (timeout : ℕ) (context : String)
  | clearAllRemoteUnavailable

/-- The job is an explicit `Hello`. -/
def Job.isHello : Job → Bool
  | .request r => r.isHello
  | .requestWithTimeout r _ => r.isHello
  | .requestMaybePreemptibleSince r _ => r.isHello
  | .requestMaybePreemptibleSinceWithTimeout r _ _ => r.isHello
  | _ => false

/-- Run a method for its effects. -/
def discard {α : Type} (p : ClientM α) : ClientM Unit := do
  let _ ← p
  pure ()

def Job.body (cr : Crates) : Job → ClientM Unit
  | .request r => discard (Sidecar.request cr r)
  | .requestWithTimeout r timeout => discard (Sidecar.requestWithTimeout cr r timeout)
  | .requestMaybePreemptibleSince r epoch =>
    discard (Sidecar.requestMaybePreemptibleSince cr r epoch)
  | .requestMaybePreemptibleSinceWithTimeout r epoch timeout =>
    discard (Sidecar.requestMaybePreemptibleSinceWithTimeout cr r epoch timeout)
  | .shutdown => Sidecar.shutdown cr
  | .killWorker => Sidecar.killWorker
  | .killWorkerWithTimeout timeout context => Sidecar.killWorkerWithTimeout timeout context
  | .invalidateSharedWorkersWithTimeout timeout context =>
    Sidecar.invalidateSharedWorkersWithTimeout timeout context
  | .clearAllRemoteUnavailable => Sidecar.clearAllRemoteUnavailable

/-- One client, which works on one job at a time. -/
def clientMachine (cr : Crates) : Machine Unit Eff Ans ClientError World Choice Job EnvMove where
  answer _ := answer
  body _ := Job.body cr
  move := envMove

/-- A new client. -/
def World.new (requestTimeout : ℕ) (lane : AgentBackoffLane) (generation : UInt64) : World where
  client := .new requestTimeout lane generation
  generation := generation
  preemptEpoch := 0
  shutdownRequested := false
  now := 0
  backoff := ⟨.clear, .clear⟩
  spawned := 0
  workers _ := ⟨false, [], none, false⟩
  channels := 0
  inbox _ := []
  sentTo _ := none
  log := []

/-! ### The gate -/

/-- A `Hello` answer of this worker was received and passed the check. -/
def Validated (cr : Crates) (log : List Event) (w : WorkerId) : Prop :=
  ∃ agentVersion protocolVersion capabilities,
    Event.received w (.response (.hello agentVersion protocolVersion capabilities)) ∈ log ∧
      validateAgentHello cr agentVersion protocolVersion = .ok ()

/-- Whatever was delivered other than a `Hello` went to a worker that had been validated before. -/
def Gated (cr : Crates) (log : List Event) : Prop :=
  ∀ w request earlier, (Event.delivered w request :: earlier) <:+ log → request.isHello = false →
    Validated cr earlier w

/-- Runs in which no ordinary request loses its worker: with the handshake complete, the generation
is still the worker's own when the worker is selected, and the worker still listens when an ordinary
command is sent. -/
def calm : Label Unit Eff Job EnvMove → World → Bool
  | .call _ (some job) .loadGeneration, s =>
    job.isHello || !s.client.handshakeComplete || s.generation == s.client.workerGeneration
  | .call _ _ (.send w command), s => command.request.isHello || (s.workers w).listening
  | _, _ => true

variable {log : List Event} {w : WorkerId}

theorem Validated.mono {cr : Crates} {log' : List Event} (h : Validated cr log w)
    (hlog : log <:+ log') : Validated cr log' w := by
  obtain ⟨v, p, caps, hmem, hok⟩ := h
  exact ⟨v, p, caps, hlog.subset hmem, hok⟩

theorem Gated.received {cr : Crates} (h : Gated cr log) (w : WorkerId) (reply : AgentWorkerReply) :
    Gated cr (.received w reply :: log) := by
  intro w' request earlier hsuffix hhello
  rcases List.suffix_cons_iff.1 hsuffix with heq | hsuffix
  · cases heq
  · exact h w' request earlier hsuffix hhello

theorem Gated.delivered {cr : Crates} (h : Gated cr log) {request : Request}
    (hw : request.isHello = false → Validated cr log w) :
    Gated cr (.delivered w request :: log) := by
  intro w' request' earlier hsuffix hhello
  rcases List.suffix_cons_iff.1 hsuffix with heq | hsuffix
  · cases heq
    exact hw hhello
  · exact h w' request' earlier hsuffix hhello

/-! ### The invariant -/

/-- The flag speaks about the current worker, ordinary commands wait only at validated workers, and
a reply channel belongs to the one worker its command was sent to. -/
structure Inv (cr : Crates) (s : World) : Prop where
  gate : s.client.handshakeComplete = true →
    ∃ w, s.client.worker = some w ∧ Validated cr s.log w
  queued : ∀ {w command}, command ∈ (s.workers w).queue → command.request.isHello = false →
    Validated cr s.log w
  gated : Gated cr s.log
  routed : ∀ {w command}, command ∈ (s.workers w).queue ∨ (s.workers w).current = some command →
    s.sentTo command.reply = some w
  answered : ∀ {reply w r}, (w, r) ∈ s.inbox reply → s.sentTo reply = some w
  fresh : ∀ {reply}, s.channels ≤ reply → s.sentTo reply = none

theorem Inv.new (cr : Crates) (requestTimeout : ℕ) (lane : AgentBackoffLane)
    (generation : UInt64) : Inv cr (World.new requestTimeout lane generation) where
  gate h := by simp [World.new, AgentClient.new] at h
  queued h := by simp [World.new] at h
  gated := by
    intro w request earlier hsuffix
    simp [World.new] at hsuffix
  routed h := by simp [World.new] at h
  answered h := by simp [World.new] at h
  fresh _ := rfl

variable {cr : Crates} {s t : World}

theorem World.setWorker_workers (w w' : WorkerId) (worker : AgentWorker) :
    (s.setWorker w worker).workers w' = if w' = w then worker else s.workers w' :=
  Function.update_apply ..

/-- A worker may lose commands or move them from its queue to its hands. -/
theorem Inv.setWorker (hi : Inv cr s) {worker : AgentWorker}
    (hqueue : ∀ command ∈ worker.queue, command ∈ (s.workers w).queue)
    (hcurrent : ∀ command, worker.current = some command →
      command ∈ (s.workers w).queue ∨ (s.workers w).current = some command) :
    Inv cr (s.setWorker w worker) where
  gate := hi.gate
  queued := by
    intro w' command hmem hhello
    rw [World.setWorker_workers] at hmem
    split at hmem
    · subst ‹w' = w›
      exact hi.queued (hqueue command hmem) hhello
    · exact hi.queued hmem hhello
  gated := hi.gated
  routed := by
    intro w' command hmem
    rw [World.setWorker_workers] at hmem
    split at hmem
    · subst ‹w' = w›
      exact hi.routed (hmem.elim (fun hmem => .inl (hqueue command hmem)) (hcurrent command))
    · exact hi.routed hmem
  answered := hi.answered
  fresh := hi.fresh

/-- A longer log keeps the invariant if it is gated itself. -/
theorem Inv.withLog (hi : Inv cr s) (hlog : s.log <:+ log) (hgated : Gated cr log) :
    Inv cr { s with log := log } where
  gate h := by
    obtain ⟨w, hw, hv⟩ := hi.gate h
    exact ⟨w, hw, hv.mono hlog⟩
  queued hmem hhello := (hi.queued hmem hhello).mono hlog
  gated := hgated
  routed := hi.routed
  answered := hi.answered
  fresh := hi.fresh

/-- An inbox may change as long as what is in it comes from the channel's worker. -/
theorem Inv.withInbox (hi : Inv cr s) {reply : ChannelId}
    {replies : List (WorkerId × AgentWorkerReply)}
    (hreplies : ∀ w r, (w, r) ∈ replies → s.sentTo reply = some w) :
    Inv cr { s with inbox := Function.update s.inbox reply replies } where
  gate := hi.gate
  queued := hi.queued
  gated := hi.gated
  routed := hi.routed
  answered := by
    intro reply' w r hmem
    by_cases hreply : reply' = reply
    · subst hreply
      simp only [Function.update_self] at hmem
      exact hreplies w r hmem
    · simp only [Function.update_of_ne hreply] at hmem
      exact hi.answered hmem
  fresh := hi.fresh

/-- The client's own fields may change if the flag stays true to its meaning. -/
theorem Inv.withClient (hi : Inv cr s) {c : AgentClient}
    (hc : c.handshakeComplete = true → ∃ w, c.worker = some w ∧ Validated cr s.log w) :
    Inv cr { s with client := c } :=
  { hi with gate := hc }

/-- A command sent on a new channel to a worker that may have it. -/
theorem Inv.send (hi : Inv cr s) {command : AgentWorkerCommand}
    (hfresh : s.sentTo command.reply = none) (hchannel : command.reply < s.channels)
    (hvalid : command.request.isHello = false → Validated cr s.log w) :
    Inv cr { s.setWorker w { s.workers w with queue := (s.workers w).queue ++ [command] } with
      sentTo := Function.update s.sentTo command.reply (some w) } := by
  -- an older command cannot be on the new channel, which nothing was sent on
  have hold : ∀ {reply w'}, s.sentTo reply = some w' →
      Function.update s.sentTo command.reply (some w) reply = some w' := by
    intro reply w' hsent
    have hne : reply ≠ command.reply := by
      rintro rfl
      rw [hfresh] at hsent
      cases hsent
    rw [Function.update_of_ne hne]
    exact hsent
  exact {
    gate := hi.gate
    queued := by
      intro w' command' hmem hhello
      simp only [World.setWorker_workers] at hmem
      split at hmem
      · subst ‹w' = w›
        rcases List.mem_append.1 hmem with hmem | hmem
        · exact hi.queued hmem hhello
        · cases List.mem_singleton.1 hmem
          exact hvalid hhello
      · exact hi.queued hmem hhello
    gated := hi.gated
    routed := by
      intro w' command' hmem
      simp only [World.setWorker_workers] at hmem
      split at hmem
      · subst ‹w' = w›
        rw [List.mem_append, List.mem_singleton] at hmem
        rcases hmem with (hmem | rfl) | hmem
        · exact hold (hi.routed (.inl hmem))
        · exact Function.update_self ..
        · exact hold (hi.routed (.inr hmem))
      · exact hold (hi.routed hmem)
    answered := fun hmem => hold (hi.answered hmem)
    fresh := by
      intro reply hreply
      have hne : reply ≠ command.reply := by
        rintro rfl
        exact absurd hchannel (Nat.not_lt.2 hreply)
      exact (Function.update_of_ne hne _ _).trans (hi.fresh hreply) }

/-! ### What the client relies on -/

/-- Between two steps of the client its fields stay, the log only grows, and nothing else is sent
on a channel. -/
structure Rely (s t : World) : Prop where
  client : t.client = s.client
  log : s.log <:+ t.log
  sentTo : t.sentTo = s.sentTo
  channels : t.channels = s.channels

theorem Rely.refl (s : World) : Rely s s := ⟨rfl, List.suffix_rfl, rfl, rfl⟩

theorem Rely.trans {u : World} (hst : Rely s t) (htu : Rely t u) : Rely s u :=
  ⟨htu.client.trans hst.client, hst.log.trans htu.log, htu.sentTo.trans hst.sentTo,
    htu.channels.trans hst.channels⟩

/-- The terms of the gate.  There is one client only, so nobody is guaranteed anything. -/
def gateSpec (cr : Crates) : Spec Unit World where
  inv := Inv cr
  rely _ := Rely
  guar _ _ _ := True
  rely_refl _ := Rely.refl
  rely_trans := Rely.trans
  guar_rely h _ := absurd (Subsingleton.elim _ _) h

/-- **Whatever happens around the client keeps the invariant and what the client relies on.** -/
theorem Inv.envMove {m : EnvMove} (hi : Inv cr s) (h : envMove m s = some t) :
    Inv cr t ∧ Rely s t := by
  cases m with
  | tick duration | bumpGeneration | preempt | requestShutdown | backoff backoff =>
    cases h
    exact ⟨{ hi with }, ⟨rfl, List.suffix_rfl, rfl, rfl⟩⟩
  | take w written =>
    simp only [Sidecar.envMove] at h
    split at h
    case h_2 => cases h
    case h_1 command rest hqueue hcurrent =>
      cases h
      have htaken : Inv cr (s.setWorker w
          { s.workers w with queue := rest, current := some command }) := by
        refine hi.setWorker (fun c hc => ?_) (fun c hc => ?_)
        · rw [hqueue]
          exact List.mem_cons_of_mem _ hc
        · cases hc
          rw [hqueue]
          exact .inl List.mem_cons_self
      have hvalid : command.request.isHello = false → Validated cr s.log w :=
        hi.queued (by rw [hqueue]; exact List.mem_cons_self)
      cases written with
      | false => exact ⟨htaken, ⟨rfl, List.suffix_rfl, rfl, rfl⟩⟩
      | true =>
        exact ⟨htaken.withLog (List.suffix_cons _ _) (hi.gated.delivered hvalid),
          ⟨rfl, List.suffix_cons _ _, rfl, rfl⟩⟩
  | respond w reply =>
    simp only [Sidecar.envMove] at h
    split at h
    case h_2 => cases h
    case h_1 command hcurrent =>
      cases h
      have hsent : s.sentTo command.reply = some w := hi.routed (.inr hcurrent)
      have hinbox : ∀ w' r, (w', r) ∈ s.inbox command.reply ++ [(w, reply)] →
          s.sentTo command.reply = some w' := by
        intro w' r hmem
        rcases List.mem_append.1 hmem with hmem | hmem
        · exact hi.answered hmem
        · obtain ⟨rfl, _⟩ := Prod.mk.inj (List.mem_singleton.1 hmem)
          exact hsent
      refine ⟨Inv.withInbox (hi.setWorker ?_ ?_) hinbox, ⟨rfl, List.suffix_rfl, rfl, rfl⟩⟩
      · intro c hc
        split at hc
        · simp [AgentWorker.ended] at hc
        · exact hc
      · intro c hc
        split at hc <;> simp [AgentWorker.ended] at hc
  | ends w =>
    cases h
    refine ⟨hi.setWorker ?_ ?_, ⟨rfl, List.suffix_rfl, rfl, rfl⟩⟩
    · intro c hc
      simp [AgentWorker.ended] at hc
    · intro c hc
      simp [AgentWorker.ended] at hc

/-! ### Steps of the client -/

section Steps

variable {j : Option Job} {α β : Type} {A B : World → Prop}

/-- Triples of the client under the terms of the gate. -/
abbrev ClientTriple (cr : Crates) (j : Option Job) (A : World → Prop) (p : ClientM α)
    (Q : α → World → Prop) (F : World → Prop) : Prop :=
  (gateSpec cr).Triple (clientMachine cr) calm () j A p Q fun _ => F

abbrev StableWorld (cr : Crates) (A : World → Prop) : Prop := (gateSpec cr).Stable () A

theorem stable_client (A : AgentClient → Prop) : StableWorld cr fun s => A s.client := by
  intro s t hst _ h
  rw [Rely.client hst]
  exact h

/-- Steps that touch neither the client's fields nor what it relies on. -/
def Eff.quiet : Eff → Bool
  | .update _ => false
  | .channel => false
  | .send _ _ => false
  | .recvTimeout _ _ => false
  | _ => true

theorem answer_quiet {e : Eff} (he : e.quiet = true) {c : Choice} {r : Ans e} (hi : Inv cr s)
    (h : answer e c s = some (r, t)) : Inv cr t ∧ Rely s t := by
  cases e with
  | update f | channel | send w command | recvTimeout reply wait => cases he
  | spawnWorker timeout =>
    have hstarted : Inv cr (s.setWorker s.spawned .started) :=
      hi.setWorker (by simp [AgentWorker.started]) (by simp [AgentWorker.started])
    have hspawn : Inv cr { s.setWorker s.spawned .started with spawned := s.spawned + 1 } :=
      { hstarted with }
    simp only [answer] at h
    split at h
    all_goals cases h
    · exact ⟨hi, Rely.refl _⟩
    all_goals exact ⟨hspawn, ⟨rfl, List.suffix_rfl, rfl, rfl⟩⟩
  | teardown w =>
    simp only [answer] at h
    split at h
    all_goals cases h; exact ⟨hi, Rely.refl _⟩
  | abort w =>
    cases h
    exact ⟨hi.setWorker (fun _ hc => hc) (fun _ hc => .inr hc),
      ⟨rfl, List.suffix_rfl, rfl, rfl⟩⟩
  | _ =>
    cases h
    exact ⟨{ hi with }, ⟨rfl, List.suffix_rfl, rfl, rfl⟩⟩

variable {F : World → Prop}

theorem perform_quiet {e : Eff} (he : e.quiet = true) (hA : StableWorld cr A) :
    ClientTriple cr j A (perform e) (fun _ => A) F := by
  refine .call hA (fun _ => hA) ?_
  intro s hs hi _ c r t h
  obtain ⟨hinv, hrely⟩ := answer_quiet he hi h
  exact ⟨hinv, trivial, hA s t hrely hinv hs⟩

theorem self_spec (hA : StableWorld cr A) :
    ClientTriple cr j A self (fun c s => s.client = c ∧ A s) F := by
  refine .call hA (fun c => (stable_client (· = c)).and hA) ?_
  intro s hs hi _ c r t h
  cases h
  exact ⟨hi, trivial, rfl, hs⟩

theorem update_spec {f : AgentClient → AgentClient} (hA : StableWorld cr A) (hB : StableWorld cr B)
    (h : ∀ s, Inv cr s → A s → ((f s.client).handshakeComplete = true →
      ∃ w, (f s.client).worker = some w ∧ Validated cr s.log w) ∧
      B { s with client := f s.client }) :
    ClientTriple cr j A (update f) (fun _ => B) F := by
  refine .call hA (fun _ => hB) ?_
  intro s hs hi _ c r t ht
  cases ht
  obtain ⟨hgate, hb⟩ := h s hi hs
  exact ⟨hi.withClient hgate, trivial, hb⟩

/-! ### Methods that leave the rest of the world alone -/

/-- An assertion that says nothing about the client's fields. -/
structure Outside (cr : Crates) (A : World → Prop) : Prop where
  stable : StableWorld cr A
  client : ∀ s c, A s → A { s with client := c }

/-- The method keeps every assertion about the rest of the world, also when it fails. -/
def Keeps (cr : Crates) (j : Option Job) (p : ClientM α) : Prop :=
  ∀ A, Outside cr A → ClientTriple cr j A p (fun _ => A) A

namespace Keeps

theorem pure (a : α) : Keeps cr j (Pure.pure a : ClientM α) :=
  fun _ hA => .pure hA.stable fun _ _ h => h

theorem err (x : ClientError) : Keeps cr j (.err x : ClientM α) :=
  fun _ hA => .err hA.stable fun _ _ h => h

variable {p : ClientM α}

theorem bind {f : α → ClientM β} (hp : Keeps cr j p) (hf : ∀ a, Keeps cr j (f a)) :
    Keeps cr j (p >>= f) :=
  fun A hA => (hp A hA).bind fun a => hf a A hA

theorem perform {e : Eff} (he : e.quiet = true) : Keeps cr j (Sidecar.perform e) :=
  fun _ hA => perform_quiet he hA.stable

theorem self : Keeps cr j self :=
  fun _ hA => perform_quiet rfl hA.stable

/-- An assignment that keeps the worker and does not set the flag. -/
theorem update {f : AgentClient → AgentClient}
    (h : ∀ c, (f c).handshakeComplete = true → c.handshakeComplete = true ∧
      (f c).worker = c.worker) : Keeps cr j (update f) := by
  intro A hA
  refine update_spec hA.stable hA.stable fun s hi hs => ⟨fun hflag => ?_, hA.client s _ hs⟩
  obtain ⟨hold, hworker⟩ := h s.client hflag
  rw [hworker]
  exact hi.gate hold

theorem attempt (h : Keeps cr j p) : Keeps cr j p.attempt :=
  fun A hA => (h A hA).attempt (fun _ _ hs => hs) fun _ _ hs => hs

theorem ite {b : Prop} [Decidable b] {q : ClientM α} (hp : Keeps cr j p) (hq : Keeps cr j q) :
    Keeps cr j (if b then p else q) :=
  fun A hA => .ite (fun _ => hp A hA) fun _ => hq A hA

/-- A method that keeps everything can be put in front of anything. -/
theorem spec (h : Keeps cr j p) (hA : Outside cr A) :
    ClientTriple cr j A p (fun _ => A) fun _ => True :=
  (h A hA).conseq (fun _ hs => hs) (fun _ _ _ hs => hs) fun _ _ _ _ => trivial

end Keeps

theorem Outside.true : Outside cr fun _ => True := ⟨Spec.Stable.true, fun _ _ _ => trivial⟩

theorem remainingTimeoutSince_keeps (started total : ℕ) :
    Keeps cr j (remainingTimeoutSince started total) :=
  (Keeps.perform rfl).bind fun _ => Keeps.pure _

theorem remaining_spec (hA : StableWorld cr A) (started total : ℕ) :
    ClientTriple cr j A (remainingTimeoutSince started total) (fun _ => A) F :=
  .bind (perform_quiet rfl hA) fun _ => .pure hA fun _ _ h => h

theorem abortAll_keeps (ws : List WorkerId) : Keeps cr j (abortAll ws) := by
  induction ws with
  | nil => exact Keeps.pure ()
  | cons w ws ih => exact (Keeps.perform rfl).bind fun _ => ih

theorem reapFinishedWorkersFrom_keeps (rounds : ℕ) :
    ∀ index, Keeps cr j (reapFinishedWorkersFrom rounds index) := by
  induction rounds with
  | zero => exact fun _ => Keeps.pure ()
  | succ rounds ih =>
    intro index
    -- removing a retired worker changes neither the flag nor the current worker
    have hremove : Keeps cr j (update fun c =>
        { c with retiredWorkers := swapRemove c.retiredWorkers index }) :=
      Keeps.update fun _ hflag => ⟨hflag, rfl⟩
    refine Keeps.self.bind fun c => ?_
    split
    · exact Keeps.pure ()
    · refine (Keeps.perform rfl).bind fun teardown => ?_
      cases teardown with
      | running => exact ih (index + 1)
      | joined => exact hremove.bind fun _ => ih index
      | workerPanicked => exact hremove.bind fun _ => Keeps.err _
      | reaperPanicked => exact hremove.bind fun _ => Keeps.err _

theorem reapFinishedWorkers_keeps : Keeps cr j reapFinishedWorkers :=
  Keeps.self.bind fun _ => reapFinishedWorkersFrom_keeps _ _

theorem retireActiveWorker_keeps : Keeps cr j retireActiveWorker := by
  intro A hA
  -- from the first assignment on, the flag is down
  have hdown : StableWorld cr fun s => s.client.handshakeComplete = false ∧ A s :=
    (stable_client (·.handshakeComplete = false)).and hA.stable
  have hassign : ∀ f : AgentClient → AgentClient,
      (∀ c, c.handshakeComplete = false → (f c).handshakeComplete = false) →
      ClientTriple cr j (fun s => s.client.handshakeComplete = false ∧ A s) (update f)
        (fun _ s => s.client.handshakeComplete = false ∧ A s) A := by
    intro f hf
    refine update_spec hdown hdown fun s _ hs => ⟨fun hflag => ?_, hf _ hs.1, hA.client s _ hs.2⟩
    rw [hf _ hs.1] at hflag
    cases hflag
  refine (update_spec hA.stable hdown fun s _ hs => ⟨fun hflag => ?_, rfl, hA.client s _ hs⟩).bind
    fun _ => (self_spec hdown).bind fun c => ?_
  · cases hflag
  · refine (?_ : ClientTriple cr j (fun s => s.client.handshakeComplete = false ∧ A s) _
      (fun _ s => s.client.handshakeComplete = false ∧ A s) A).conseq
        (fun _ hs => hs.2) (fun _ _ _ hs => hs.2) fun _ _ _ hs => hs
    split
    · exact .pure hdown fun _ _ h => h
    · refine .bind (hassign _ ?_) fun _ =>
        .bind (perform_quiet rfl hdown) fun _ => hassign _ ?_
      · exact fun _ h => h
      · exact fun _ h => h

theorem killWorker_keeps : Keeps cr j killWorker :=
  retireActiveWorker_keeps.bind fun _ => Keeps.self.bind fun _ => (abortAll_keeps _).bind fun _ =>
    reapFinishedWorkers_keeps.attempt.bind fun _ => Keeps.pure ()

theorem drainRetiredWorkers_keeps (started timeout : ℕ) (context : String) (rounds : ℕ) :
    Keeps cr j (drainRetiredWorkers started timeout context rounds) := by
  induction rounds with
  | zero => exact Keeps.err _
  | succ rounds ih =>
    refine Keeps.self.bind fun _ => (abortAll_keeps _).bind fun _ =>
      reapFinishedWorkers_keeps.bind fun _ => Keeps.self.bind fun _ => ?_
    refine Keeps.ite (Keeps.pure ()) ((remainingTimeoutSince_keeps _ _).bind fun _ => ?_)
    exact Keeps.ite (Keeps.err _) ((Keeps.perform rfl).bind fun _ => ih)

theorem killWorkerWithTimeout_keeps (timeout : ℕ) (context : String) :
    Keeps cr j (killWorkerWithTimeout timeout context) :=
  retireActiveWorker_keeps.bind fun _ => (Keeps.perform rfl).bind fun _ =>
    drainRetiredWorkers_keeps _ _ _ _

theorem markUnavailable_keeps (error : String) (failure : Option TrustedAgentFailure) :
    Keeps cr j (markRemoteUnavailableWithTrustedFailure error failure) :=
  (Keeps.update fun _ hflag => by cases hflag).bind fun _ => Keeps.self.bind fun _ =>
    (Keeps.perform rfl).bind fun _ => Keeps.pure _

theorem markRequestTimeout_keeps (id : UInt64) (timeout : ℕ) (phase : String) :
    Keeps cr j (markRequestTimeout id timeout phase) :=
  (markUnavailable_keeps _ _).bind fun _ => Keeps.pure _

theorem clearAllRemoteUnavailable_keeps : Keeps cr j clearAllRemoteUnavailable :=
  (Keeps.perform rfl).bind fun _ => Keeps.pure ()

theorem checkRemoteBackoff_keeps : Keeps cr j checkRemoteBackoff := by
  refine Keeps.self.bind fun c => (Keeps.perform rfl).bind fun nb => ?_
  obtain ⟨now, backoff⟩ := nb
  dsimp only
  split
  · exact Keeps.err _
  · exact (Keeps.perform rfl).bind fun _ => Keeps.pure ()

variable {Q : α → World → Prop}

/-- A method that keeps the world and then fails has no result to speak of. -/
theorem fails_spec {p : ClientM ClientError} (hp : Keeps cr j p) :
    ClientTriple cr j A (p >>= fun x => (.err x : ClientM α)) Q fun _ => True :=
  .bind (Q := fun _ _ => True)
    ((hp _ Outside.true).pre fun _ _ => trivial) fun _ => .err Spec.Stable.true fun _ _ h => h

theorem killWorker_spec : ClientTriple cr j A killWorker (fun _ _ => True) fun _ => True :=
  (killWorker_keeps _ Outside.true).pre fun _ _ => trivial

theorem abandon_spec {mark : ClientM ClientError} (h : Keeps cr j mark) :
    ClientTriple cr j A (abandon mark : ClientM α) Q fun _ => True :=
  killWorker_spec.bind fun _ => (perform_quiet (e := .invalidateRemoteHostInfo) rfl
    Spec.Stable.true).bind fun _ => fails_spec h

end Steps

/-! ### The request path -/

/-- The job that runs is not a `Hello` itself. -/
def Ordinary (j : Option Job) : Prop := ∃ job, j = some job ∧ job.isHello = false

/-- The request may go to the current worker: it is a `Hello`, or the handshake is complete. -/
def Ready (request : Request) (s : World) : Prop :=
  request.isHello = true ∨ s.client.handshakeComplete = true

/-- A reply channel on which nothing was sent yet. -/
def Unsent (reply : ChannelId) (s : World) : Prop :=
  s.sentTo reply = none ∧ reply < s.channels

/-- The command with this reply channel is at the current worker. -/
def Sent (reply : ChannelId) (s : World) : Prop :=
  ∃ w, s.client.worker = some w ∧ s.sentTo reply = some w

/-- This reply came from the current worker. -/
def Heard (reply : AgentWorkerReply) (s : World) : Prop :=
  ∃ w, s.client.worker = some w ∧ Event.received w reply ∈ s.log

/-- What a request that was answered leaves behind. -/
def Outcome (outcome : AgentRequestOutcome) (s : World) : Prop :=
  ∀ response, outcome = .response response → Heard (.response response) s

theorem stable_ready (request : Request) : StableWorld cr (Ready request) :=
  stable_client fun c => request.isHello = true ∨ c.handshakeComplete = true

theorem stable_unsent (reply : ChannelId) : StableWorld cr (Unsent reply) := by
  intro s t hst _ h
  rw [Unsent, Rely.sentTo hst, Rely.channels hst]
  exact h

theorem outside_unsent (reply : ChannelId) : Outside cr (Unsent reply) :=
  ⟨stable_unsent reply, fun _ _ h => h⟩

theorem stable_sent (reply : ChannelId) : StableWorld cr (Sent reply) := by
  intro s t hst _ h
  rw [Sent, Rely.sentTo hst, Rely.client hst]
  exact h

theorem stable_heard (reply : AgentWorkerReply) : StableWorld cr (Heard reply) := by
  rintro s t hst _ ⟨w, hw, hmem⟩
  refine ⟨w, ?_, (Rely.log hst).subset hmem⟩
  rw [Rely.client hst]
  exact hw

theorem stable_outcome (outcome : AgentRequestOutcome) : StableWorld cr (Outcome outcome) :=
  fun s t hst hi h response hresponse =>
    stable_heard (.response response) s t hst hi (h response hresponse)

section Requests

variable {j : Option Job} {α : Type} {request : Request} {A : World → Prop}

/-- With the handshake complete, an ordinary request finds the generation it knows. -/
theorem loadGeneration_spec {F : World → Prop} (hA : StableWorld cr A)
    (hj : request.isHello = false → Ordinary j) :
    ClientTriple cr j (fun s => Ready request s ∧ A s) loadGeneration
      (fun generation s => (request.isHello = true ∨ s.client.handshakeComplete = true ∧
        s.client.workerGeneration = generation) ∧ A s) F := by
  refine .call ((stable_ready request).and hA) (fun generation =>
    (stable_client fun c => request.isHello = true ∨ c.handshakeComplete = true ∧
      c.workerGeneration = generation).and hA) ?_
  rintro s ⟨hready, hs⟩ hi hcalm c r t h
  cases h
  refine ⟨hi, trivial, ?_, hs⟩
  rcases hready with hhello | hflag
  · exact .inl hhello
  · cases hrequest : request.isHello with
    | true => exact .inl rfl
    | false =>
      obtain ⟨job, rfl, hjob⟩ := hj hrequest
      have hgeneration : s.generation = s.client.workerGeneration := by
        simpa [calm, hjob, hflag] using hcalm
      exact .inr ⟨hflag, hgeneration.symm⟩

/-- **A request that may go to the current worker still may after the worker is selected.** -/
theorem ensureWorker_spec (hA : Outside cr A) (timeout : ℕ)
    (hj : request.isHello = false → Ordinary j) :
    ClientTriple cr j (fun s => Ready request s ∧ A s) (ensureWorker timeout)
      (fun w s => s.client.worker = some w ∧ Ready request s ∧ A s) fun _ => True := by
  have hready : StableWorld cr fun s => Ready request s ∧ A s :=
    (stable_ready request).and hA.stable
  have hpost : ∀ w, StableWorld cr fun s => s.client.worker = some w ∧ Ready request s ∧ A s :=
    fun w => (stable_client (·.worker = some w)).and hready
  refine .bind (perform_quiet rfl hready) fun isShutdown => .ite
    (fun _ => .err hready fun _ _ _ => trivial) fun _ => ?_
  refine .bind (loadGeneration_spec hA.stable hj) fun generation => ?_
  refine .bind (self_spec ((stable_client fun c => request.isHello = true ∨
    c.handshakeComplete = true ∧ c.workerGeneration = generation).and hA.stable)) fun c => ?_
  refine .bind (Q := fun _ s => Ready request s ∧ A s) ?replace fun _ => ?_
  case replace =>
    refine .ite (fun hreplace => ?_) fun _ => ?_
    · -- the worker is replaced: the generation differs, so the request must be a `Hello`
      intro s hs
      obtain ⟨hc, hold, hAs⟩ := hs
      simp only [Bool.and_eq_true, bne_iff_ne, ne_eq] at hreplace
      have hhello : request.isHello = true := by
        rcases hold with hhello | ⟨_, hgeneration⟩
        · exact hhello
        · rw [hc] at hgeneration
          exact absurd hgeneration hreplace.2
      have hkill : ClientTriple cr j A killWorker (fun _ s => Ready request s ∧ A s)
          fun _ => True :=
        (killWorker_keeps A hA).conseq (fun _ h => h) (fun _ _ _ h => ⟨.inl hhello, h⟩)
          fun _ _ _ _ => trivial
      exact hkill s hAs
    · refine .pure ((stable_client (· = c)).and ((stable_client fun c =>
        request.isHello = true ∨ c.handshakeComplete = true ∧
          c.workerGeneration = generation).and hA.stable)) ?_
      rintro s _ ⟨_, hold, hAs⟩
      exact ⟨hold.imp_right And.left, hAs⟩
  refine .bind (self_spec hready) fun c => ?_
  have hknown : StableWorld cr fun s => s.client = c ∧ Ready request s ∧ A s :=
    (stable_client (· = c)).and hready
  split
  case h_1 w hw =>
    refine .pure hknown ?_
    rintro s _ ⟨rfl, h⟩
    exact ⟨hw, h⟩
  case h_2 hw =>
    -- without a worker the flag is down, so a new worker does not make it lie
    refine .bind (perform_quiet rfl hknown) fun spawned => ?_
    cases spawned with
    | error text => exact .err hknown fun _ _ _ => trivial
    | ok w =>
      refine .bind (update_spec hknown (hpost w) ?_) fun _ =>
        .bind (update_spec (hpost w) (hpost w) ?_) fun _ =>
          .pure (hpost w) fun _ _ h => h
      · rintro s hi ⟨rfl, hr, hAs⟩
        have hdown : ¬ s.client.handshakeComplete = true := by
          intro hflag
          obtain ⟨w', hw', _⟩ := hi.gate hflag
          rw [hw] at hw'
          cases hw'
        exact ⟨fun hflag => absurd hflag hdown, rfl, hr, hA.client s _ hAs⟩
      · rintro s hi ⟨hsw, hr, hAs⟩
        exact ⟨hi.gate, hsw, hr, hA.client s _ hAs⟩

variable {command : AgentWorkerCommand}

/-- A command that may go to the worker goes there, or is a `Hello` that can be tried again. -/
theorem send_spec :
    ClientTriple cr j (fun s => s.client.worker = some w ∧ Ready command.request s ∧
        Unsent command.reply s) (send w command)
      (fun sent s => if sent = true then Sent command.reply s
        else command.request.isHello = true ∧ Unsent command.reply s) fun _ => True := by
  refine .call ((stable_client (·.worker = some w)).and
    ((stable_ready command.request).and (stable_unsent command.reply))) (fun sent => ?_) ?_
  · intro s t hst hi h
    split
    case isTrue hsent => exact stable_sent _ s t hst hi (by simpa [hsent] using h)
    case isFalse hsent =>
      have hold : command.request.isHello = true ∧ Unsent command.reply s := by
        simpa [hsent] using h
      exact ⟨hold.1, stable_unsent _ s t hst hi hold.2⟩
  · rintro s ⟨hw, hready, hunsent⟩ hi hcalm c r t h
    cases hlisten : (s.workers w).listening with
    | false =>
      have hhello : command.request.isHello = true := by
        simpa [calm, hlisten] using hcalm
      simp only [clientMachine, answer] at h
      rw [if_neg (by simp [hlisten])] at h
      cases h
      exact ⟨hi, trivial, hhello, hunsent⟩
    | true =>
      simp only [clientMachine, answer] at h
      rw [if_pos hlisten] at h
      cases h
      refine ⟨hi.send hunsent.1 hunsent.2 ?_, trivial, w, hw, Function.update_self ..⟩
      intro hordinary
      rcases hready with hhello | hflag
      · rw [hordinary] at hhello
        cases hhello
      · obtain ⟨w', hw', hvalid⟩ := hi.gate hflag
        rw [hw] at hw'
        cases hw'
        exact hvalid

variable {timeout started : ℕ}

theorem sendAttempt_spec {gone : ClientM Unit} (hj : command.request.isHello = false → Ordinary j)
    (hgone : ClientTriple cr j (fun s => Ready command.request s ∧ Unsent command.reply s) gone
      (fun _ => Sent command.reply) fun _ => True) :
    ClientTriple cr j (fun s => Ready command.request s ∧ Unsent command.reply s)
      (sendAttempt command started timeout gone) (fun _ => Sent command.reply) fun _ => True := by
  have hready : StableWorld cr fun s => Ready command.request s ∧ Unsent command.reply s :=
    (stable_ready _).and (stable_unsent _)
  refine .bind (remaining_spec hready _ _) fun remaining =>
    .ite (fun _ => abandon_spec (markRequestTimeout_keeps _ _ _)) fun _ => ?_
  refine .bind (.attempt (B := fun selected s => match selected with
      | .ok w => s.client.worker = some w ∧ Ready command.request s ∧ Unsent command.reply s
      | .error _ => True)
    (ensureWorker_spec (outside_unsent _) remaining hj) (fun _ _ h => h) fun _ _ h => h) ?_
  intro selected
  cases selected with
  | error failure =>
    exact .bind (perform_quiet (e := .invalidateRemoteHostInfo) rfl Spec.Stable.true)
      fun _ => fails_spec (markUnavailable_keeps _ _)
  | ok w =>
    refine .bind send_spec fun sent => ?_
    cases sent with
    | true => exact .pure (stable_sent _) fun _ _ h => h
    | false =>
      intro s hs
      obtain ⟨hhello, hunsent⟩ : command.request.isHello = true ∧ Unsent command.reply s :=
        hs
      have hretry : ClientTriple cr j (Unsent command.reply) (do
          killWorker
          invalidateRemoteHostInfo
          gone) (fun _ => Sent command.reply) fun _ => True :=
        .bind (killWorker_keeps.spec (outside_unsent _)) fun _ =>
          .bind (perform_quiet rfl (stable_unsent _)) fun _ =>
            hgone.pre fun _ h => ⟨.inl hhello, h⟩
      exact hretry s hunsent

theorem sendCommand_spec (command : AgentWorkerCommand)
    (hj : command.request.isHello = false → Ordinary j) :
    ClientTriple cr j (fun s => Ready command.request s ∧ Unsent command.reply s)
      (sendCommand command started timeout) (fun _ => Sent command.reply) fun _ => True :=
  sendAttempt_spec hj (sendAttempt_spec hj
    (fails_spec (markUnavailable_keeps _ _)))

/-- What comes over the channel was said by the worker the command was sent to. -/
theorem recvTimeout_spec {reply : ChannelId} {wait : ℕ} :
    ClientTriple cr j (Sent reply) (recvTimeout reply wait)
      (fun received s => match received with
        | .reply r => Heard r s
        | _ => Sent reply s) fun _ => True := by
  refine .call (stable_sent reply) (fun received => ?_) ?_
  · intro s t hst hi h
    cases received with
    | reply r => exact stable_heard r s t hst hi h
    | timeout | disconnected => exact stable_sent reply s t hst hi h
  · rintro s ⟨w, hw, hsent⟩ hi _ c r t h
    have hreceive : ∀ w' r' rest, s.inbox reply = (w', r') :: rest →
        Inv cr { s with
          inbox := Function.update s.inbox reply rest, log := .received w' r' :: s.log } ∧
          w' = w := by
      intro w' r' rest hinbox
      have hmem : ∀ w'' r'', (w'', r'') ∈ rest → s.sentTo reply = some w'' :=
        fun w'' r'' hr => hi.answered (by rw [hinbox]; exact List.mem_cons_of_mem _ hr)
      refine ⟨(hi.withInbox hmem).withLog (List.suffix_cons _ _) (hi.gated.received w' r'), ?_⟩
      have hsent' : s.sentTo reply = some w' :=
        hi.answered (by rw [hinbox]; exact List.mem_cons_self)
      rw [hsent] at hsent'
      exact (Option.some.inj hsent').symm
    simp only [clientMachine, answer] at h
    split at h
    · cases h
      exact ⟨{ hi with }, trivial, w, hw, hsent⟩
    · cases h
      exact ⟨hi, trivial, w, hw, hsent⟩
    · split at h
      case h_2 => cases h
      case h_1 w' r' rest hinbox =>
        cases h
        obtain ⟨hinv, rfl⟩ := hreceive w' r' rest hinbox
        exact ⟨hinv, trivial, w', hw, List.mem_cons_self⟩

theorem handleWorkerReply_spec {reply : AgentWorkerReply} :
    ClientTriple cr j (Heard reply) (handleWorkerReply cr reply request) Outcome fun _ => True := by
  have hresult : ∀ response, reply = .response response →
      ClientTriple cr j (Heard reply) (pure (.response response)) Outcome fun _ => True := by
    rintro response rfl
    refine .pure (stable_heard _) fun s _ h response' heq => ?_
    cases heq
    exact h
  cases reply with
  | response response =>
    cases response with
    | hello v p caps => exact hresult _ rfl
    | error message => exact .err (stable_heard _) fun _ _ _ => trivial
    | work frame => exact hresult _ rfl
  | error rpc =>
    simp only [handleWorkerReply]
    split
    · exact killWorker_spec.bind fun _ => fails_spec (markUnavailable_keeps _ _)
    · exact .ite
        (fun _ => killWorker_spec.bind fun _ => fails_spec (markUnavailable_keeps _ _))
        fun _ => .err (stable_heard _) fun _ _ _ => trivial
  | launchError failure | transportError message =>
    exact abandon_spec (markUnavailable_keeps _ _)

variable {preemptible : Bool} {preemptEpoch : UInt64}

theorem waitForReplyFrom_spec {id : UInt64} {reply : ChannelId} (rounds : ℕ) :
    ClientTriple cr j (Sent reply) (waitForReplyFrom cr id request reply preemptible preemptEpoch
      timeout started rounds) Outcome fun _ => True := by
  induction rounds with
  | zero => exact abandon_spec (markRequestTimeout_keeps _ _ _)
  | succ rounds ih =>
    refine .bind (perform_quiet rfl (stable_sent reply)) fun epoch =>
      .ite (fun _ => ?_) fun _ => ?_
    · refine killWorker_spec.bind fun _ => ?_
      refine .pure Spec.Stable.true fun s _ _ response heq => ?_
      cases heq
    refine .bind (remaining_spec (stable_sent reply) _ _) fun remaining =>
      .ite (fun _ => abandon_spec (markRequestTimeout_keeps _ _ _)) fun _ => ?_
    refine .bind recvTimeout_spec fun received => ?_
    cases received with
    | reply r => exact handleWorkerReply_spec
    | timeout => exact ih
    | disconnected => exact abandon_spec (markUnavailable_keeps _ _)

/-- **An answered request was answered by the current worker.** -/
theorem sendRequestOutcome_spec (hj : request.isHello = false → Ordinary j) :
    ClientTriple cr j (Ready request)
      (sendRequestOutcome cr request preemptible preemptEpoch timeout) Outcome fun _ => True := by
  have hready : StableWorld cr (Ready request) := stable_ready request
  refine .bind (perform_quiet rfl hready) fun isShutdown => .ite
    (fun _ => .err hready fun _ _ _ => trivial) fun _ => ?_
  refine .bind (perform_quiet rfl hready) fun c =>
    .bind (update_spec hready hready fun s hi hs => ⟨hi.gate, hs⟩) fun _ =>
      .bind (perform_quiet rfl hready) fun started => ?_
  refine .bind (Q := fun reply s => Ready request s ∧ Unsent reply s) ?_
    fun reply => ?_
  · refine .call hready (fun reply => hready.and (stable_unsent reply)) ?_
    intro s hs hi _ c r t h
    cases h
    exact ⟨{ hi with fresh := fun hle => hi.fresh (Nat.le_of_succ_le hle) }, trivial, hs,
      hi.fresh (Nat.le_refl _), Nat.lt_succ_self _⟩
  refine .bind (sendCommand_spec ⟨c.nextId, request, reply⟩ hj) fun _ => ?_
  refine .bind (remaining_spec (stable_sent reply) _ _) fun remaining =>
    .ite (fun _ => abandon_spec (markRequestTimeout_keeps _ _ _)) fun _ => ?_
  exact .bind (perform_quiet rfl (stable_sent reply)) fun _ => waitForReplyFrom_spec _

/-- **The flag goes up only for the worker whose answer was checked.** -/
theorem acceptHello_spec {response : Response} :
    ClientTriple cr j (Heard (.response response)) (acceptHello cr response)
      (fun _ s => s.client.handshakeComplete = true) fun _ => True := by
  have hflag : StableWorld cr fun s => s.client.handshakeComplete = true :=
    stable_client (·.handshakeComplete = true)
  cases response with
  | hello agentVersion protocolVersion capabilities =>
    simp only [acceptHello]
    split
    case h_1 hok =>
      refine .bind (update_spec (stable_heard _) hflag ?_) fun _ =>
        .bind (update_spec hflag hflag fun s hi h => ⟨hi.gate, h⟩) fun _ =>
          .bind (perform_quiet rfl hflag) fun _ =>
            .pure hflag fun _ _ h => h
      rintro s hi ⟨w, hw, hmem⟩
      exact ⟨fun _ => ⟨w, hw, agentVersion, protocolVersion, capabilities, hmem, hok⟩, rfl⟩
    case h_2 incompatible _ =>
      refine killWorker_spec.bind fun _ => ?_
      cases incompatible.failure with
      | none => exact fails_spec (markUnavailable_keeps _ _)
      | some failure => exact fails_spec (markUnavailable_keeps _ _)
  | error message | work frame =>
    exact killWorker_spec.bind fun _ =>
      fails_spec (markUnavailable_keeps _ _)

theorem ensureHandshake_spec :
    ClientTriple cr j (fun _ => True) (ensureHandshake cr preemptible preemptEpoch timeout)
      (fun outcome s => outcome = none → s.client.handshakeComplete = true) fun _ => True := by
  have hhello : helloRequest.isHello = false → Ordinary j := fun h => by cases h
  refine .bind ((sendRequestOutcome_spec hhello).pre fun _ _ => .inl rfl) fun outcome => ?_
  cases outcome with
  | response response =>
    refine .bind (acceptHello_spec.pre fun s h => h response rfl) fun _ => ?_
    exact .pure (stable_client (·.handshakeComplete = true)) fun _ _ h _ => h
  | preempted =>
    refine .pure (stable_outcome _) fun s _ _ hnone => ?_
    cases hnone

theorem requestOutcomeGated_spec (hj : request.isHello = false → Ordinary j) :
    ClientTriple cr j (Ready request)
      (requestOutcomeGated cr request preemptible preemptEpoch timeout started)
      (fun _ _ => True) fun _ => True := by
  have hready : StableWorld cr (Ready request) := stable_ready request
  refine .bind (remaining_spec hready _ _) fun remaining => .ite (fun _ => ?_) fun _ => ?_
  · exact .bind (perform_quiet rfl hready) fun _ =>
      .bind (update_spec hready hready fun s hi hs => ⟨hi.gate, hs⟩) fun _ =>
        abandon_spec (markRequestTimeout_keeps _ _ _)
  refine .bind (sendRequestOutcome_spec hj) fun outcome => ?_
  refine .bind (Q := fun _ _ => True) (.ite (fun _ => ?_) fun _ => ?_)
    fun _ => .pure Spec.Stable.true fun _ _ h => h
  · cases outcome with
    | response response =>
      exact .conseq acceptHello_spec (fun s h => h response rfl)
        (fun _ _ _ _ => trivial) fun _ _ _ h => h
    | preempted => exact .pure (stable_outcome _) fun _ _ _ => trivial
  · exact .pure (stable_outcome _) fun _ _ _ => trivial

theorem requestOutcomeInner_spec (hj : request.isHello = false → Ordinary j) :
    ClientTriple cr j (fun _ => True)
      (requestOutcomeInner cr request preemptible preemptEpoch timeout)
      (fun _ _ => True) fun _ => True := by
  refine .bind (perform_quiet rfl Spec.Stable.true) fun started =>
    .bind (checkRemoteBackoff_keeps.spec Outside.true) fun _ =>
      .bind (self_spec Spec.Stable.true) fun c => ?_
  refine .bind (Q := fun gate s => gate = none → Ready request s)
    (.ite (fun _ => ?_) fun hpass => ?_) fun gate => ?_
  · exact ensureHandshake_spec.conseq (fun _ _ => trivial)
      (fun _ _ _ h hnone => .inr (h hnone)) fun _ _ _ h => h
  · refine .pure ((stable_client (· = c)).and Spec.Stable.true) ?_
    rintro s _ ⟨rfl, _⟩ _
    -- the gate was open: a `Hello`, or the flag is up
    cases hhello : request.isHello with
    | true => exact .inl hhello
    | false => exact .inr (by simpa [hhello] using hpass)
  · cases gate with
    | some outcome =>
      intro s _ t _ _
      trivial
    | none =>
      exact (requestOutcomeGated_spec hj).pre fun _ h => h rfl

theorem requestInner_spec (hj : request.isHello = false → Ordinary j) :
    ClientTriple cr j (fun _ => True) (requestInner cr request preemptible timeout)
      (fun _ _ => True) fun _ => True := by
  refine .bind (perform_quiet rfl Spec.Stable.true) fun epoch =>
    .bind (requestOutcomeInner_spec hj) fun outcome => ?_
  cases outcome with
  | response response => exact .pure Spec.Stable.true fun _ _ h => h
  | preempted => exact .err Spec.Stable.true fun _ _ h => h

theorem request_spec (hj : request.isHello = false → Ordinary j) :
    ClientTriple cr j (fun _ => True) (Sidecar.request cr request)
    (fun _ _ => True) fun _ => True :=
  .bind (perform_quiet rfl Spec.Stable.true) fun _ => requestInner_spec hj

theorem discard_spec {p : ClientM α}
    (h : ClientTriple cr j (fun _ => True) p (fun _ _ => True) fun _ => True) :
    ClientTriple cr j (fun _ => True) (discard p) (fun _ _ => True) fun _ => True :=
  .bind h fun _ => .pure Spec.Stable.true fun _ _ h => h

theorem shutdown_spec (hj : Ordinary j) :
    ClientTriple cr j (fun _ => True) (shutdown cr) (fun _ _ => True) fun _ => True := by
  refine .bind (perform_quiet rfl Spec.Stable.true) fun c =>
    .bind (Q := fun _ _ => True) (.ite (fun _ => ?_) fun _ => ?_)
      fun _ => killWorker_keeps.spec Outside.true
  · exact discard_spec ((request_spec fun _ => hj).attempt (fun _ _ h => h) fun _ _ h => h)
  · exact .pure Spec.Stable.true fun _ _ h => h

end Requests

/-! ### Runs -/

/-- **Every job of the client keeps the gate.** -/
theorem Job.body_spec (job : Job) : ClientTriple cr (some job) (fun _ => True) (job.body cr)
    (fun _ _ => True)
      fun _ => True := by
  cases job with
  | request r =>
    exact discard_spec (request_spec fun h => ⟨_, rfl, h⟩)
  | requestWithTimeout r timeout =>
    exact discard_spec (requestInner_spec fun h => ⟨_, rfl, h⟩)
  | requestMaybePreemptibleSince r epoch =>
    exact discard_spec (.bind (perform_quiet rfl Spec.Stable.true) fun _ =>
      requestOutcomeInner_spec fun h => ⟨_, rfl, h⟩)
  | requestMaybePreemptibleSinceWithTimeout r epoch timeout =>
    exact discard_spec (requestOutcomeInner_spec fun h => ⟨_, rfl, h⟩)
  | shutdown => exact shutdown_spec ⟨_, rfl, rfl⟩
  | killWorker => exact killWorker_keeps.spec Outside.true
  | killWorkerWithTimeout timeout context =>
    exact (killWorkerWithTimeout_keeps timeout context).spec Outside.true
  | invalidateSharedWorkersWithTimeout timeout context =>
    exact .bind (perform_quiet rfl Spec.Stable.true) fun _ =>
      (killWorkerWithTimeout_keeps timeout context).spec Outside.true
  | clearAllRemoteUnavailable => exact clearAllRemoteUnavailable_keeps.spec Outside.true

theorem gateSpec_met : Spec.Met (gateSpec cr) (clientMachine cr) calm where
  body i job s _ _ := by
    refine (job.body_spec s trivial).mono ?_
    intro r t _ _
    trivial
  move m s t hi _ h := by
    obtain ⟨hinv, hrely⟩ := hi.envMove h
    exact ⟨hinv, fun _ => hrely⟩

/-- **The handshake gate**: in every run of a client in which no ordinary request loses its worker,
whatever is delivered besides `Hello` goes to a worker whose `Hello` answer was checked before. -/
theorem gated_of_calm_run (cr : Crates) (requestTimeout : ℕ) (lane : AgentBackoffLane)
    (generation : UInt64) (moves : List (Move Unit Choice Job EnvMove))
    (st : State Unit Eff Ans ClientError World Job)
    (hrun : (clientMachine cr).runs calm (.idle (World.new requestTimeout lane generation)) moves =
      some st) :
    Gated cr st.world.log := by
  have hstart : (gateSpec cr).inv (World.new requestTimeout lane generation) :=
    Inv.new cr requestTimeout lane generation
  exact (Spec.inv_of_runs gateSpec_met hstart (Spec.AllSafe.idle _) hrun).gated

/-! ### Two runs -/

namespace GateSample

/-- `semver` on the one version that is looked at. -/
def crates : Crates where
  parseVersion text := if text = packageVersion then some packageVersion else none
  debugResponse _ := ""

/-- `CapabilitySet::v1_agent` -/
def capabilities : CapabilitySet where
  scan := true
  read := true
  writeCas := true
  checksum := true
  grep := true
  lspProxy := false
  batchRead := true
  batchValidate := true
  chunkedWrite := true
  requestIds := true
  cancellation := false
  streaming := false
  multiplexing := false
  git := true
  runtimeProcessV1 := false
  runtimePtyV1 := false
  workspaceWatchV1 := false

/-- The answer of an agent of the same release. -/
def helloReply : AgentWorkerReply :=
  .response (.hello packageVersion Runtime.protocolVersion capabilities)

def steps (n : ℕ) : List (Move Unit Choice Job EnvMove) := List.replicate n (.call () .plain)

/-- The first request of a client: a worker is started and asked for its version, then gets the
request and answers it. -/
def firstRequest : List (Move Unit Choice Job EnvMove) :=
  .start () (.request (.work [1])) :: steps 25 ++
    [.env (.take 0 true), .env (.respond 0 helloReply)] ++ steps 20 ++
    [.env (.take 0 true), .env (.respond 0 (.response (.work [9])))] ++ steps 1

/-- The other lane advances the generation, and the next request goes out. -/
def secondRequest : List (Move Unit Choice Job EnvMove) :=
  .env .bumpGeneration :: .start () (.request (.work [2])) :: steps 36 ++ [.env (.take 1 true)]

/-- A client with a request timeout of 30 seconds. -/
def start : State Unit Eff Ans ClientError World Job :=
  .idle (World.new (30000 * nanosPerMilli) .read 0)

/-- What happened in the first request. -/
def firstLog : List Event :=
  [.received 0 (.response (.work [9])), .delivered 0 (.work [1]), .received 0 helloReply,
    .delivered 0 helloRequest]

end GateSample

open GateSample in
/-- An ordinary request of a client that has just started, and the handshake before it. -/
theorem gated_of_calm_run_first :
    ∃ st, (clientMachine crates).runs calm start firstRequest = some st ∧
      st.world.log = firstLog ∧ Gated crates st.world.log := by
  have hrun : ((clientMachine crates).runs calm start firstRequest).map (·.world.log) =
      some firstLog := by decide +kernel
  obtain ⟨st, hst, hlog⟩ := Option.map_eq_some_iff.1 hrun
  exact ⟨st, hst, hlog, gated_of_calm_run crates (30000 * nanosPerMilli) .read 0
    firstRequest st hst⟩

open GateSample in
/-- **A generation bump between two requests breaks the gate**: the second request is delivered to
the new worker, which was never asked for its version. -/
theorem replaced_worker_ungated :
    ∃ st, (clientMachine crates).runs (fun _ _ => true) start (firstRequest ++ secondRequest) =
      some st ∧ ¬ Gated crates st.world.log := by
  have hrun : ((clientMachine crates).runs (fun _ _ => true) start
      (firstRequest ++ secondRequest)).map (·.world.log) =
        some (.delivered 1 (.work [2]) :: firstLog) := by decide +kernel
  obtain ⟨st, hst, hlog⟩ := Option.map_eq_some_iff.1 hrun
  refine ⟨st, hst, fun hgated => ?_⟩
  rw [hlog] at hgated
  obtain ⟨v, p, caps, hmem, _⟩ := hgated 1 (.work [2]) firstLog List.suffix_rfl rfl
  simp [firstLog, GateSample.helloReply] at hmem

end RemoteMirror.Sidecar
