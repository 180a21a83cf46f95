/-
**A fetch fails closed.**

Whatever lies in the cache and whatever the network answers, a fetch that succeeds has verified the
manifest it used under the configured keys, and hands out a file with the bytes this manifest signs.
The pair in the cache is used only after failures of certain kinds, and not against a manifest that
was just received.

Three facts carry the argument.  The pair that is read from the cache is the one that was there at
the start, because until then no call makes, writes or renames a file.  What was heard about the
manifest and its signatures does not change once the pair is selected, because every later call is
about the cache or about the artifact.  And the bytes that were hashed last are those of the file
that is returned, because no call after that writes.

Main definitions:

* `Registry.NetworkEvent.excuses` — the failures after which the cache may be used;
* `Registry.CacheDisk.Has` — an entry of the cache and its bytes;
* `Registry.Selected` — where a pair comes from.

Main results:

* `Registry.getBounded_ends` — what a request for a document yields;
* `Registry.readManifestPair_gives` — what is read from the cache are the bytes of its entries;
* `Registry.selectManifestPair_gives` — **where the manifest and its signatures come from**;
* `Registry.openVerifiedCachedArtifact_gives` — **an opened artifact has the bytes it should
  have**;
* `Registry.fetch_fails_closed` — **what a successful fetch has verified**.
-/

import RemoteMirror.RegistryFetch

namespace RemoteMirror.Registry

open Interact.Prog (Ends Gives)

variable {env : FetchEnv} {α β : Type} {w u t : FetchWorld} {phase : String}
  {onError : IoError → FetchError env.Version} {name artifactPath destination : CacheName}
  {maxBytes fuel file max : ℕ} {paths : ManifestCachePaths} {url signatureUrl : env.urls.Url}
    {path : Place}
  {artifact : Artifact} {bytes manifest signature : List UInt8} {source : ManifestSource}
  {mode : RedirectPolicyMode} {part : Part} {config : FetchConfig env}

/-! ### Single calls -/

variable {c : FetchChoice} {Url : Type}

/-- Asking for the time changes nothing else. -/
theorem answer_deadline {r : Bool} (h : answer (.deadline : FetchCall Url) c w = some (r, u)) :
    ∃ expired, u = { w with expired := expired } := by
  obtain ⟨error, _, h⟩ | h := answer_cases h
  · cases h
  · have h : stillTime c w = some (r, u) := h
    unfold stillTime at h
    split at h <;> cases h
    · exact ⟨true, rfl⟩
    · exact ⟨w.expired, rfl⟩

/-- A check of the deadline: there is time, or the fetch ends. -/
theorem check_ends {f : Unit → FetchM env α} {Q : Except (FetchError env.Version) α →
    FetchWorld → Prop}
    (herr : ∀ expired, Q (.error (.operationDeadline phase)) { w with expired := expired })
    (h : ∀ expired, (f ()).Ends answer Q { w with expired := expired }) :
    (check phase >>= f).Ends answer Q w := by
  intro c r t ht
  obtain ⟨expired, rfl⟩ := answer_deadline ht
  cases (r : Bool) with
  | true => exact h expired
  | false => exact herr expired

theorem check_gives {f : Unit → FetchM env α} {Q : α → FetchWorld → Prop}
    (h : ∀ expired, (f ()).Gives answer Q { w with expired := expired }) :
    (check phase >>= f).Gives answer Q w :=
  check_ends (fun _ => nofun) h

variable {e : FetchCall env.urls.Url}

theorem call_ends {f : Ans e → FetchM env α} {Q : Except (FetchError env.Version) α →
    FetchWorld → Prop}
    (h : ∀ c r t, answer e c w = some (r, t) → (f r).Ends answer Q t) :
    (call e >>= f).Ends answer Q w :=
  h

theorem call_gives {f : Ans e → FetchM env α} {Q : α → FetchWorld → Prop}
    (h : ∀ c r t, answer e c w = some (r, t) → (f r).Gives answer Q t) :
    (call e >>= f).Gives answer Q w :=
  h

theorem orElse_ends {r : Except IoError β} {f : β → FetchM env α}
    {Q : Except (FetchError env.Version) α → FetchWorld → Prop}
    (herr : ∀ error, r = .error error → Q (.error (onError error)) w)
    (h : ∀ b, r = .ok b → (f b).Ends answer Q w) : (orElse onError r >>= f).Ends answer Q w := by
  cases r with
  | ok b => exact h b rfl
  | error error => exact herr error rfl

theorem orElse_gives {r : Except IoError β} {f : β → FetchM env α} {Q : α → FetchWorld → Prop}
    (h : ∀ b, r = .ok b → (f b).Gives answer Q w) : (orElse onError r >>= f).Gives answer Q w :=
  orElse_ends (fun _ _ => nofun) h

/-! ### Which calls are made -/

/-- The calls that make, write and rename nothing. -/
def Reads {Url : Type} (e : FetchCall Url) : Prop := e.reads = true

/-- The calls that change no bytes and ask for neither the manifest nor its signatures. -/
def Quiet {Url : Type} (e : FetchCall Url) : Prop := e.reads = true ∧ e.offPair = true

/-- The calls that ask for neither the manifest nor its signatures. -/
def OffPair {Url : Type} (e : FetchCall Url) : Prop := e.offPair = true

variable {p : FetchM env α}

theorem offPair_of_quiet (h : p.Calls Quiet) : p.Calls OffPair :=
  h.mono fun _ he => he.2

variable {K : FetchCall env.urls.Url → Prop}

theorem check_calls (hK : K .deadline) : (check phase : FetchM env Unit).Calls K :=
  ⟨hK, fun r => by cases (r : Bool) <;> exact trivial⟩

theorem check_quiet : (check phase : FetchM env Unit).Calls Quiet := check_calls ⟨rfl, rfl⟩

theorem check_reads : (check phase : FetchM env Unit).Calls Reads := check_calls rfl

theorem check_off : (check phase : FetchM env Unit).Calls OffPair := check_calls rfl

theorem orElse_calls {r : Except IoError β} : (orElse onError r).Calls K := by
  cases r <;> exact trivial

/-- A call with a check after it, whose failure ends the fetch. -/
theorem asked_calls {g : Ans e → Except IoError β} {f : β → FetchM env α} (he : K .deadline ∧ K e)
    (hf : ∀ b, (f b).Calls K) :
    (call e >>= fun r => check phase >>= fun _ => orElse onError (g r) >>= f).Calls K :=
  .bind (.ask he.2) fun _ => (check_calls he.1).bind fun _ => orElse_calls.bind hf

theorem orThen_calls (he : K e) (hp : p.Calls K) : (orThen e p).Calls K := by
  refine hp.attempt.bind fun r => ?_
  cases r with
  | ok a => exact trivial
  | error error => exact ⟨he, fun _ => trivial⟩

theorem touch_quiet : (touch name : FetchM env Unit).Calls Quiet := by
  refine check_quiet.bind fun _ => .bind (.ask ⟨rfl, rfl⟩) fun r => check_quiet.bind fun _ => ?_
  match (r : Except IoError (Option ℕ)) with
  | .ok (some file) => exact .bind (.ask ⟨rfl, rfl⟩) fun _ => check_quiet
  | .ok none => exact check_quiet
  | .error _ => exact trivial

variable {dir : CacheDir}

theorem scanEntries_quiet :
    ∀ entries, (scanEntries dir entries : FetchM env (List CachedFile)).Calls Quiet
  | [] => trivial
  | _ :: rest =>
    check_quiet.bind fun _ => orElse_calls.bind fun _ => check_quiet.bind fun _ =>
      orElse_calls.bind fun _ => (scanEntries_quiet rest).bind fun _ => trivial

theorem scanDirectory_quiet : (scanDirectory dir : FetchM env (List CachedFile)).Calls Quiet :=
  check_quiet.bind fun _ => asked_calls ⟨⟨rfl, rfl⟩, rfl, rfl⟩ fun _ => scanEntries_quiet _

variable {kept : List CacheName}

theorem evictFiles_quiet :
    ∀ files total, (evictFiles maxBytes kept files total : FetchM env ℕ).Calls Quiet
  | [], _ => trivial
  | file :: rest, total => by
      refine check_quiet.bind fun _ => .ite (fun _ => trivial) fun _ =>
        .ite (fun _ => ?_) fun _ => ?_
      · exact evictFiles_quiet rest total
      refine .bind (.ask ⟨rfl, rfl⟩) fun handle => check_quiet.bind fun _ => ?_
      match (handle : Except IoError ℕ) with
      | .error error => exact .ite (fun _ => evictFiles_quiet rest _) fun _ => trivial
      | .ok handle =>
        refine check_quiet.bind fun _ => .bind (.ask ⟨rfl, rfl⟩) fun locked =>
          check_quiet.bind fun _ => ?_
        match (locked : Except IoError Bool) with
        | .error error => exact trivial
        | .ok false => exact evictFiles_quiet rest total
        | .ok true =>
          refine check_quiet.bind fun _ => .bind (.ask ⟨rfl, rfl⟩) fun removed =>
            check_quiet.bind fun _ => ?_
          match (removed : Except IoError Unit) with
          | .ok () => exact evictFiles_quiet rest _
          | .error error => exact .ite (fun _ => evictFiles_quiet rest _) fun _ => trivial

theorem evictToBudget_quiet : (evictToBudget maxBytes kept : FetchM env Unit).Calls Quiet := by
  refine check_quiet.bind fun _ => scanDirectory_quiet.bind fun _ => scanDirectory_quiet.bind
    fun _ => .ite (fun _ => check_quiet) fun _ => check_quiet.bind fun _ => check_quiet.bind
    fun _ => (evictFiles_quiet _ _).bind fun _ => .ite (fun _ => trivial) fun _ => check_quiet

variable {artifactSize pairSize : ℕ}

theorem evictForResult_quiet :
    (evictForResult maxBytes artifactPath paths artifactSize pairSize : FetchM env Unit).Calls
      Quiet := by
  refine check_quiet.bind fun _ => .bind (.ite (fun _ => ?_) fun _ => trivial) fun keepPair =>
    check_quiet.bind fun _ => .ite (fun _ => evictToBudget_quiet) fun _ => evictToBudget_quiet
  exact .bind (.ask ⟨rfl, rfl⟩) fun _ => .ite (fun _ => .ask ⟨rfl, rfl⟩) fun _ => trivial

theorem finishFetch_quiet :
    (finishFetch maxBytes artifactPath paths artifactSize pairSize : FetchM env Unit).Calls Quiet :=
  touch_quiet.bind fun _ => (touch_quiet.bind fun _ => touch_quiet).bind fun _ =>
    evictForResult_quiet.bind fun _ => check_quiet

theorem removeInvalidCacheEntry_quiet :
    (removeInvalidCacheEntry name : FetchM env Unit).Calls Quiet := by
  refine check_quiet.bind fun _ => .bind (.ask ⟨rfl, rfl⟩) fun removed =>
    check_quiet.bind fun _ => ?_
  match (removed : Except IoError Unit) with
  | .ok () => exact trivial
  | .error error => exact .ite (fun _ => trivial) fun _ => trivial

theorem waitForLock_quiet : (waitForLock : FetchM env Unit).Calls Quiet :=
  ⟨⟨rfl, rfl⟩, fun r => by cases (r : Bool) <;> exact trivial⟩

theorem lockCache_quiet : ∀ fuel, (lockCache fuel : FetchM env Unit).Calls Quiet
  | 0 => trivial
  | fuel + 1 => by
      refine waitForLock_quiet.bind fun _ => .bind (.ask ⟨rfl, rfl⟩) fun attempt =>
        waitForLock_quiet.bind fun _ => ?_
      match (attempt : Except IoError Bool) with
      | .ok true => exact trivial
      | .ok false => exact waitForLock_quiet.bind fun _ => lockCache_quiet fuel
      | .error error => exact trivial

theorem openCache_quiet : (openCache fuel : FetchM env Unit).Calls Quiet :=
  check_quiet.bind fun _ =>
    asked_calls ⟨⟨rfl, rfl⟩, rfl, rfl⟩ fun _ => asked_calls ⟨⟨rfl, rfl⟩, rfl, rfl⟩ fun _ =>
    asked_calls ⟨⟨rfl, rfl⟩, rfl, rfl⟩ fun _ => asked_calls ⟨⟨rfl, rfl⟩, rfl, rfl⟩ fun _ =>
    lockCache_quiet fuel

theorem manifestPaths_quiet : (manifestPaths url).Calls Quiet :=
  check_quiet.bind fun _ => check_quiet.bind fun _ => trivial

theorem readUpTo_calls {read : ℕ → ℕ → FetchM env (Except IoError (List UInt8))} (hK : K .deadline)
    (hread : ∀ offset limit, (read offset limit).Calls K) :
    ∀ fuel bytes remaining, (readUpTo read phase onError fuel bytes remaining).Calls K
  | 0, _, _ => trivial
  | fuel + 1, bytes, remaining => by
      refine .ite (fun _ => trivial) fun _ => (check_calls hK).bind fun _ => (hread _ _).bind
        fun chunk => (check_calls hK).bind fun _ => ?_
      match chunk with
      | .error error =>
        exact .ite (fun _ => readUpTo_calls hK hread fuel bytes remaining) fun _ => trivial
      | .ok [] => exact trivial
      | .ok (byte :: more) => exact readUpTo_calls hK hread fuel _ _

theorem readCacheFile_quiet : (readCacheFile fuel name max : FetchM env (List UInt8)).Calls Quiet :=
  check_quiet.bind fun _ => asked_calls ⟨⟨rfl, rfl⟩, rfl, rfl⟩ fun _ =>
    .ite (fun _ => trivial) fun _ => .ite (fun _ => trivial) fun _ => asked_calls ⟨⟨rfl, rfl⟩,
      rfl, rfl⟩ fun _ =>
    (readUpTo_calls ⟨rfl, rfl⟩ (fun _ _ => .ask ⟨rfl, rfl⟩) fuel _ _).bind fun _ =>
      .ite (fun _ => trivial) fun _ => check_quiet.bind
    fun _ => trivial

theorem readManifestPair_quiet :
    (readManifestPair fuel paths : FetchM env (List UInt8 × List UInt8)).Calls Quiet :=
  readCacheFile_quiet.bind fun _ => readCacheFile_quiet.bind fun _ => check_quiet.bind
    fun _ => trivial

theorem digestLoop_quiet :
    ∀ fuel bytes, (digestLoop file path max fuel bytes : FetchM env (ℕ × String)).Calls Quiet
  | 0, _ => trivial
  | fuel + 1, bytes => by
      refine check_quiet.bind fun _ => .bind (.ask ⟨rfl, rfl⟩) fun read =>
        check_quiet.bind fun _ => ?_
      match (read : Except IoError (List UInt8)) with
      | .error error => exact .ite (fun _ => digestLoop_quiet fuel bytes) fun _ => trivial
      | .ok [] => exact trivial
      | .ok (byte :: more) =>
        exact .ite (fun _ => trivial) fun _ => check_quiet.bind fun _ => digestLoop_quiet fuel _

theorem rewind_quiet : (rewind path : FetchM env Unit).Calls Quiet :=
  .bind (.ask ⟨rfl, rfl⟩) fun _ => check_quiet.bind fun _ => orElse_calls

theorem digestOpenFile_quiet :
    (digestOpenFile fuel file path max : FetchM env (ℕ × String)).Calls Quiet := by
  refine check_quiet.bind fun _ => asked_calls ⟨⟨rfl, rfl⟩, rfl, rfl⟩ fun _ =>
    (digestLoop_quiet fuel []).attempt.bind fun result => ?_
  match result with
  | .error error => exact .ite (fun _ => trivial) fun _ => rewind_quiet.bind fun _ => trivial
  | .ok _ => exact rewind_quiet.bind fun _ => trivial

theorem verifyLeased_quiet : (verifyLeased fuel file path artifact : FetchM env Bool).Calls Quiet :=
  check_quiet.bind fun _ => check_quiet.bind fun _ => digestOpenFile_quiet.bind fun _ =>
    .ite (fun _ => trivial) fun _ => check_quiet.bind fun _ => trivial

theorem openVerifiedCachedArtifact_quiet :
    (openVerifiedCachedArtifact fuel name artifact : FetchM env (Option ℕ)).Calls Quiet := by
  refine check_quiet.bind fun _ => .bind (.ask ⟨rfl, rfl⟩) fun metadata =>
    check_quiet.bind fun _ => ?_
  match (metadata : Except IoError Metadata) with
  | .error error => exact .ite (fun _ => trivial) fun _ => trivial
  | .ok metadata =>
    refine .ite (fun _ => removeInvalidCacheEntry_quiet.bind fun _ => trivial) fun _ => ?_
    refine asked_calls ⟨⟨rfl, rfl⟩, rfl, rfl⟩ fun _ =>
      check_quiet.bind fun _ => .bind (.ask ⟨rfl, rfl⟩) fun lease => ?_
    match (lease : Except IoError Bool) with
    | .ok false => exact check_quiet.bind fun _ => trivial
    | .error error => exact check_quiet.bind fun _ => trivial
    | .ok true =>
      refine (orThen_calls ⟨rfl, rfl⟩ verifyLeased_quiet).bind fun right => .ite (fun _ => trivial)
        fun _ => .bind (.ask ⟨rfl, rfl⟩) fun _ => removeInvalidCacheEntry_quiet.bind fun _ =>
        trivial

variable {operation : String}

theorem writeAllDeadlined_off {inode : ℕ} :
    ∀ fuel bytes,
      (writeAllDeadlined inode phase operation path fuel bytes : FetchM env Unit).Calls OffPair
  | 0, _ => trivial
  | fuel + 1, bytes => by
      refine .ite (fun _ => trivial) fun _ => check_off.bind fun _ => .bind (.ask rfl)
        fun written => check_off.bind fun _ => ?_
      match (written : Except IoError ℕ) with
      | .ok 0 => exact trivial
      | .ok (n + 1) => exact writeAllDeadlined_off fuel _
      | .error error => exact .ite (fun _ => writeAllDeadlined_off fuel bytes) fun _ => trivial

theorem createTempLoop_off :
    ∀ left, (createTempLoop destination left : FetchM env (CacheName × ℕ)).Calls OffPair
  | 0 => trivial
  | left + 1 => by
      refine check_off.bind fun _ => .bind (.ask rfl) fun sequence => .bind (.ask rfl) fun opened =>
        check_off.bind fun _ => ?_
      match (opened : Except IoError ℕ) with
      | .ok file => exact trivial
      | .error error => exact .ite (fun _ => createTempLoop_off left) fun _ => trivial

theorem createTempFor_off :
    (createTempFor destination : FetchM env (CacheName × ℕ)).Calls OffPair :=
  check_off.bind fun _ => createTempLoop_off 128

theorem activate_off {temp : CacheName} :
    (activate operation phase temp destination : FetchM env Unit).Calls OffPair := by
  refine check_off.bind fun _ => asked_calls ⟨rfl, rfl⟩ fun _ => .bind ?_ fun _ => ?_
  · exact check_off.bind fun _ => .bind (.ask rfl) fun _ => check_off.bind fun _ => orElse_calls
  · exact check_off.bind fun _ => asked_calls ⟨rfl, rfl⟩ fun _ =>
      .bind (.ask rfl) fun _ => check_off.bind fun _ => orElse_calls

theorem writeChunks_off {inode : ℕ} :
    ∀ chunks, (writeChunks fuel inode path chunks : FetchM env Unit).Calls OffPair
  | [] => trivial
  | chunk :: rest => (writeAllDeadlined_off fuel chunk).bind fun _ => writeChunks_off rest

theorem atomicWrite_off : (atomicWrite fuel destination bytes : FetchM env Unit).Calls OffPair :=
  check_off.bind fun _ => createTempFor_off.bind fun _ =>
    orThen_calls rfl ((writeChunks_off _).bind fun _ => activate_off)

theorem rememberManifestPair_off :
    (rememberManifestPair fuel maxBytes paths manifest signature source : FetchM env Unit).Calls
      OffPair := by
  refine .ite (fun _ => trivial) fun _ => .ite (fun _ => ?_) fun _ => ?_
  · refine .bind ?_ fun _ => offPair_of_quiet evictToBudget_quiet
    exact atomicWrite_off.bind fun _ => atomicWrite_off.bind fun _ =>
      (offPair_of_quiet touch_quiet).bind fun _ => offPair_of_quiet touch_quiet
  · exact (offPair_of_quiet removeInvalidCacheEntry_quiet).bind fun _ =>
      offPair_of_quiet removeInvalidCacheEntry_quiet

theorem copyArtifact_off {temp : ℕ} {tempPath : Place} :
    ∀ fuel bytes, (copyArtifact onError artifact temp tempPath fuel bytes).Calls OffPair
  | 0, _ => trivial
  | fuel + 1, bytes => by
      refine check_off.bind fun _ => .bind (.ask rfl) fun read => check_off.bind fun _ => ?_
      match (read : Except IoError (List UInt8)) with
      | .error error => exact .ite (fun _ => copyArtifact_off fuel bytes) fun _ => trivial
      | .ok [] => exact trivial
      | .ok (byte :: more) =>
        exact .ite (fun _ => trivial) fun _ => (writeAllDeadlined_off fuel _).bind fun _ =>
          check_off.bind fun _ => copyArtifact_off fuel _

theorem installArtifactReader_off :
    (installArtifactReader fuel onError destination artifact).Calls OffPair :=
  check_off.bind fun _ => createTempFor_off.bind fun _ => orThen_calls rfl <|
    (copyArtifact_off fuel []).bind fun _ => .ite (fun _ => trivial) fun _ =>
      .ite (fun _ => trivial) fun _ => activate_off.bind fun _ => check_off

theorem openWithRedirects_calls (hK : K .deadline) (hpart : ∀ url, K (.request part url))
    (left : ℕ) : ∀ current : env.urls.Url, (openWithRedirects mode part left current).Calls K := by
  induction left using Nat.strongRecOn with
  | ind left ih =>
    intro current
    rw [openWithRedirects]
    refine (check_calls hK).bind fun _ => .bind (.ask (hpart _)) fun response =>
      (check_calls hK).bind fun _ => ?_
    match (response : Except UreqError ResponseHead) with
    | .error source => exact trivial
    | .ok ⟨status, location, contentLength⟩ =>
      refine .ite (fun _ => ?_) fun _ => .ite (fun _ => (check_calls hK).bind fun _ => trivial)
        fun _ => trivial
      match left, location with
      | 0, _ => exact trivial
      | left + 1, none => exact trivial
      | left + 1, some location =>
        dsimp only
        match env.urls.resolveRedirect mode current location with
        | .error (source, target, reason) => exact trivial
        | .ok target => exact (check_calls hK).bind fun _ => ih left (Nat.lt_succ_self left) target

theorem installArtifactFromNetwork_off :
    (installArtifactFromNetwork fuel mode url destination artifact).Calls OffPair := by
  have hopen : (openWithRedirects mode .artifact maxRedirects url).Calls OffPair :=
    openWithRedirects_calls (K := OffPair) rfl (fun _ => by exact rfl) _ _
  refine check_off.bind fun _ => hopen.bind fun opened => check_off.bind fun _ => ?_
  obtain ⟨finalUrl, status, location, contentLength⟩ := opened
  match contentLength with
  | some length =>
    exact .ite (fun _ => trivial) fun _ => .ite (fun _ => trivial) fun _ =>
      check_off.bind fun _ => installArtifactReader_off
  | none => exact check_off.bind fun _ => installArtifactReader_off

variable {pairUrl : env.urls.Url}

theorem openContainedFileArtifact_off {artifactUrl : env.urls.Url} :
    (openContainedFileArtifact pairUrl artifactUrl).Calls OffPair := by
  refine check_off.bind fun _ => ?_
  match env.urls.toFilePath pairUrl with
  | none | some [] => exact trivial
  | some (first :: rest) =>
    refine asked_calls ⟨rfl, rfl⟩ fun _ => ?_
    match env.urls.toFilePath artifactUrl with
    | none => exact trivial
    | some path =>
      refine asked_calls ⟨rfl, rfl⟩ fun _ => .ite (fun _ => trivial) fun _ => ?_
      refine asked_calls ⟨rfl, rfl⟩ fun _ => ?_
      refine asked_calls ⟨rfl, rfl⟩ fun _ => .ite (fun _ => trivial) fun _ => ?_
      refine asked_calls ⟨rfl, rfl⟩ fun _ => .ite (fun _ => trivial) fun _ => ?_
      refine .bind (.ask rfl) fun _ => check_off.bind fun _ => ?_
      refine orElse_calls.bind fun _ => ?_
      exact .ite (fun _ => trivial) fun _ => check_off

theorem installArtifact_off :
    (installArtifact fuel mode pairUrl destination artifact).Calls OffPair := by
  unfold installArtifact
  cases env.urls.artifactUrl mode pairUrl artifact.filename with
  | error error => exact trivial
  | ok url =>
    refine .ite (fun _ => ?_) fun _ => installArtifactFromNetwork_off.bind fun _ => trivial
    exact openContainedFileArtifact_off.bind fun _ => installArtifactReader_off.bind
      fun _ => trivial

/-- Programs about the artifact hear nothing about the manifest and its signatures. -/
theorem news_of_calls (h : p.Calls OffPair) :
    p.Ends answer (fun _ t => News (fun event => event.part = .artifact) w t) w :=
  h.ends (fun _ => .of_log rfl) (fun h h' => .trans h h') fun _ he _ _ _ _ => answer_pair he

/-- Programs that make, write and rename nothing leave the bytes of all files as they are, and add
no entry. -/
theorem sameBytes_of_reads (h : p.Calls Reads) :
    p.Ends answer (fun _ t => SameBytes w t) w :=
  h.ends SameBytes.refl (fun h h' => SameBytes.trans h h') fun _ he _ _ _ _ => answer_bytes he

theorem sameBytes_of_calls (h : p.Calls Quiet) : p.Ends answer (fun _ t => SameBytes w t) w :=
  sameBytes_of_reads (h.mono fun _ he => he.1)

theorem looked_of_calls (h : p.Calls Quiet) :
    p.Ends answer (fun _ t => News (fun event => event.part = .artifact) w t ∧ SameBytes w t) w :=
  (news_of_calls (offPair_of_quiet h)).and (sameBytes_of_calls h)

/-- Retrieving a document leaves the cache as it is. -/
theorem getBounded_reads {kind : String} :
    (getBounded fuel mode part url max kind).Calls Reads := by
  have hopen : (openWithRedirects mode part maxRedirects url).Calls Reads :=
    openWithRedirects_calls (K := Reads) rfl (fun _ => rfl) _ _
  refine check_reads.bind fun _ => hopen.bind fun opened => check_reads.bind fun _ => ?_
  refine .ite (fun _ => trivial) fun _ => check_reads.bind fun _ => ?_
  refine Interact.Prog.Calls.bind (readUpTo_calls (K := Reads) rfl ?_ fuel _ _) fun bytes => ?_
  · exact fun _ _ => ⟨rfl, fun _ => trivial⟩
  exact .ite (fun _ => trivial) fun _ => check_reads.bind fun _ => trivial

theorem retrieveManifestPair_reads :
    (retrieveManifestPair fuel mode url signatureUrl).Calls Reads := by
  refine getBounded_reads.attempt.bind fun manifest => ?_
  cases manifest with
  | error error => exact trivial
  | ok manifest =>
    refine getBounded_reads.attempt.bind fun signature => ?_
    cases signature with
    | error error => exact trivial
    | ok signature => exact trivial

/-! ### Documents -/

/-- The failures after which the cache may be used: a timeout, a failed connection, a status 429 or
5xx. -/
def NetworkEvent.excuses : NetworkEvent → Bool
  | .failed _ error => error.failureKind == .timeout || error.failureKind == .connection
  | .answered _ status => status == 429 || (500 ≤ status && status ≤ 599)
  | .received _ _ => false

/-- There was such a failure. -/
def Excused (part : Part) (w : FetchWorld) : Prop :=
  ∃ event ∈ w.log, event.part = part ∧ event.excuses = true

/-- Events of a request whose document did not come to its end. -/
def Unread (part : Part) (event : NetworkEvent) : Prop :=
  event.part = part ∧ ∀ bytes, event ≠ .received part bytes

/-- Events of a request for a document with these bytes. -/
def ReadAs (part : Part) (bytes : List UInt8) (event : NetworkEvent) : Prop :=
  event.part = part ∧ ∀ bytes', event = .received part bytes' → bytes' = bytes

theorem Unread.readAs {event : NetworkEvent} (h : Unread part event) : ReadAs part bytes event :=
  ⟨h.1, fun bytes' he => absurd he (h.2 bytes')⟩

theorem excuses_of_network {source : UreqError}
    (h : (networkError url source).isCacheFallbackEligible = true) (part : Part) :
    (NetworkEvent.failed part source).excuses = true := by
  unfold networkError at h
  show (source.failureKind == .timeout || source.failureKind == .connection) = true
  cases hkind : source.failureKind with
  | timeout => rfl
  | connection => rfl
  | protocol =>
    rw [hkind] at h
    cases h

variable (env) in
/-- What `open_with_redirects` can end with. -/
def Opened (part : Part) (w : FetchWorld) :
    Except (FetchError env.Version) (env.urls.Url × ResponseHead) → FetchWorld → Prop
  | .ok _, t => News (Unread part) w t ∧ t.body = []
  | .error error, t =>
    error.isCacheFallbackEligible = true → News (Unread part) w t ∧ Excused part t

theorem Opened.later {r : Except (FetchError env.Version) (env.urls.Url × ResponseHead)}
    (hnews : News (Unread part) w u) (h : Opened env part u r t) : Opened env part w r t := by
  cases r with
  | ok _ => exact ⟨hnews.trans h.1, h.2⟩
  | error error => exact fun he => ⟨hnews.trans (h he).1, (h he).2⟩

theorem openWithRedirects_ends (left : ℕ) : ∀ (current : env.urls.Url) (w : FetchWorld),
      (openWithRedirects mode part left current).Ends answer (Opened env part w) w := by
  induction left using Nat.strongRecOn with
  | ind left ih =>
    intro current w
    rw [openWithRedirects]
    refine check_ends (fun _ => nofun) fun _ => call_ends fun c r t ht => ?_
    rcases answer_request ht with ⟨head, rfl, rfl⟩ | ⟨source, rfl, rfl⟩
    · refine check_ends (fun _ => nofun) fun _ => Ends.ite (fun _ => ?_) fun _ => Ends.ite ?_ ?_
      · -- a redirect: the next request is made with one redirect less
        cases left with
        | zero => exact nofun
        | succ left =>
          obtain ⟨status, location, contentLength⟩ := head
          cases location with
          | none => exact nofun
          | some location =>
            dsimp only
            cases env.urls.resolveRedirect mode current location with
            | error refusal =>
              obtain ⟨source, target, reason⟩ := refusal
              exact nofun
            | ok target =>
              refine check_ends (fun _ => nofun) fun _ => ?_
              exact (ih left (Nat.lt_succ_self left) target _).mono fun _ _ =>
                Opened.later (.cons rfl ⟨rfl, nofun⟩)
      · intro _
        exact check_ends (fun _ => nofun) fun _ => ⟨.cons rfl ⟨rfl, nofun⟩, rfl⟩
      · intro _ heligible
        exact ⟨.cons rfl ⟨rfl, nofun⟩, _, List.mem_cons_self, rfl, heligible⟩
    · refine check_ends (fun _ => nofun) fun _ heligible => ?_
      have hexcuses := excuses_of_network heligible part
      exact ⟨.cons rfl ⟨rfl, nofun⟩, _, List.mem_cons_self, rfl, hexcuses⟩

variable (env) in
/-- What reading a document can end with; `max` bytes were asked for. -/
def Read (part : Part) (max : ℕ) (w : FetchWorld) :
    Except (FetchError env.Version) (List UInt8) → FetchWorld → Prop
  | .ok bytes, t =>
    max < bytes.length ∨ News (ReadAs part bytes) w t ∧ .received part bytes ∈ t.log
  | .error error, t =>
    error.isCacheFallbackEligible = true → News (Unread part) w t ∧ Excused part t

variable (env) in
/-- What a request for a document can end with. -/
def Got (part : Part) (w : FetchWorld) :
    Except (FetchError env.Version) (List UInt8) → FetchWorld → Prop
  | .ok bytes, t => News (ReadAs part bytes) w t ∧ .received part bytes ∈ t.log
  | .error error, t =>
    error.isCacheFallbackEligible = true → News (Unread part) w t ∧ Excused part t

/-- Errors while reading that allow the use of the cache are failures of the connection. -/
def Classified (onError : IoError → FetchError env.Version) : Prop :=
  ∀ error part, (onError error).isCacheFallbackEligible = true →
    (NetworkEvent.failed part (.io error)).excuses = true

/-- **The loop over a document** stops at its end, or after more than `max` bytes. -/
theorem readUpTo_ends (hclassified : Classified onError) (fuel : ℕ) :
    ∀ (bytes : List UInt8) (remaining : ℕ) (u : FetchWorld), u.log = w.log → u.body = bytes →
      max < bytes.length + remaining →
      (readUpTo (readDocument part) phase onError fuel bytes remaining).Ends answer
        (Read env part max w) u := by
  induction fuel with
  | zero => exact fun _ _ _ _ _ _ => nofun
  | succ fuel ih =>
    intro bytes remaining u hlog hbody hmax
    rw [readUpTo]
    refine Ends.ite (fun hzero => Or.inl (by omega)) fun _ => ?_
    refine check_ends (fun _ => nofun) fun _ => call_ends fun c r t ht => ?_
    rcases answer_readBody ht with ⟨error, rfl, rfl⟩ | ⟨rfl, rfl⟩ | ⟨chunk, hne, rfl, rfl⟩
    · refine check_ends (fun _ => nofun) fun _ => Ends.ite (fun hkind => ?_) fun hkind => ?_
      · -- an interrupted read is tried again, in the same world
        rw [failed, if_pos hkind]
        exact ih bytes remaining _ hlog hbody hmax
      · rw [failed, if_neg hkind]
        intro heligible
        exact ⟨.cons (congrArg _ hlog) ⟨rfl, nofun⟩, _, List.mem_cons_self, rfl,
          hclassified error part heligible⟩
    · refine check_ends (fun _ => nofun) fun _ => Or.inr ?_
      subst hbody
      refine ⟨.cons (congrArg _ hlog) ⟨rfl, ?_⟩, List.mem_cons_self⟩
      rintro bytes' ⟨⟩
      rfl
    · cases chunk with
      | nil => exact absurd rfl hne
      | cons byte more =>
        refine check_ends (fun _ => nofun) fun _ => ?_
        refine ih (bytes ++ byte :: more) _ _ hlog ?_ ?_
        · show u.body ++ byte :: more = _
          rw [hbody]
        · rw [List.length_append]
          omega

variable {kind : String}

/-- A document that is not too long has been read to its end. -/
theorem bounded_ends {p : FetchM env (List UInt8)} {url : String}
    (h : p.Ends answer (Read env part max w) u) :
    (p >>= fun bytes => if max < bytes.length then .err (.bodyTooLarge kind url max)
      else do
        check phase
        pure bytes).Ends answer (Got env part w) u := by
  refine Ends.bind (h.mono fun r t hr => ?_)
  cases r with
  | error error => exact hr
  | ok bytes =>
    refine Ends.ite (fun _ => nofun) fun hle => check_ends (fun _ => nofun) fun _ => ?_
    exact hr.resolve_left hle

theorem classified_network (url : env.urls.Url) :
    Classified fun error => networkError url (.io error) :=
  fun _ part h => excuses_of_network h part

theorem classified_io (operation : String) (path : Place) :
    Classified fun error => (ioError operation path error : FetchError env.Version) :=
  fun _ _ => nofun

theorem readBounded_ends (hlog : u.log = w.log) (hbody : u.body = []) :
    (readBounded fuel part max kind url).Ends answer (Got env part w) u :=
  bounded_ends (readUpTo_ends (classified_network url) fuel [] (max + 1) u hlog hbody (by simp))

/-- **What a request for a document yields.** -/
theorem getBounded_ends :
    (getBounded fuel mode part url max kind).Ends answer (Got env part w) w := by
  refine check_ends (fun _ => nofun) fun _ => Ends.bind ?_
  refine (openWithRedirects_ends maxRedirects url _).mono fun r t h => ?_
  cases r with
  | error error => exact h
  | ok opened =>
    obtain ⟨hnews, hbody⟩ := h
    refine check_ends (fun _ => nofun) fun _ => Ends.ite (fun _ => nofun) fun _ => ?_
    refine check_ends (fun _ => nofun) fun _ => ?_
    refine Ends.mono (readBounded_ends (w := t) rfl hbody) fun r u hgot => ?_
    cases r with
    | ok bytes => exact ⟨.trans (hnews.mono fun _ => Unread.readAs) hgot.1, hgot.2⟩
    | error error => exact fun he => ⟨.trans hnews (hgot he).1, (hgot he).2⟩

/-- Opening a file of a registry starts a new document. -/
theorem answer_registryOpen {r : Except IoError Unit}
    (h : answer (.registryOpen : FetchCall Url) c w = some (r, u)) (a : Unit) (hr : r = .ok a) :
    u.body = [] := by
  obtain ⟨error, _, h⟩ | h := answer_cases h
  · cases h
    cases hr
  · cases h
    rfl

theorem readFileUrlBounded_ends :
    (readFileUrlBounded fuel part url max kind).Ends answer (Got env part w) w := by
  refine check_ends (fun _ => nofun) fun _ => ?_
  cases env.urls.toFilePath url with
  | none => exact nofun
  | some path =>
    refine call_ends fun c r t ht => check_ends (fun _ => nofun) fun _ => ?_
    have hlog : t.log = w.log := (answer_looks rfl ht).2
    refine orElse_ends (fun _ _ => nofun) fun metadata _ => ?_
    refine Ends.ite (fun _ => nofun) fun _ => Ends.ite (fun _ => nofun) fun _ => ?_
    refine call_ends fun c' r' t' ht' => check_ends (fun _ => nofun) fun _ => ?_
    have hlog' : t'.log = w.log := (answer_looks rfl ht').2.trans hlog
    refine orElse_ends (fun _ _ => nofun) fun _ hopened => ?_
    have hbody := answer_registryOpen ht' _ hopened
    exact bounded_ends (readUpTo_ends (classified_io "read" _) fuel [] (max + 1) _ hlog' hbody
      (by simp))

/-! ### Entries of the cache -/

/-- A read yields the next bytes of the file; only at its end it yields none. -/
theorem answer_read {offset limit : ℕ} {r : Except IoError (List UInt8)}
    (h : answer (.read file offset limit : FetchCall Url) c w = some (r, u)) (chunk : List UInt8)
    (hr : r = .ok chunk) : u = w ∧ ∃ n, 0 < n ∧
      chunk = ((w.disk.file file).bytes.drop offset).take n := by
  obtain ⟨error, _, h⟩ | h := answer_cases h
  · cases h
    cases hr
  · obtain ⟨hu, n, hpos, _, hchunk⟩ := readAt_eq h
    rw [hchunk] at hr
    cases hr
    exact ⟨hu, n, hpos, rfl⟩

variable {all : List UInt8}

/-- The next bytes after a beginning of a file make a longer beginning, or there are none. -/
theorem append_prefix_of_read {chunk : List UInt8} {n : ℕ} (h : bytes <+: all)
    (hchunk : chunk = (all.drop bytes.length).take n) : bytes ++ chunk <+: all := by
  obtain ⟨rest, rfl⟩ := h
  rw [List.drop_left] at hchunk
  rw [hchunk, List.prefix_append_right_inj]
  exact List.take_prefix n rest

theorem eq_of_read_nil {n : ℕ} (h : bytes <+: all) (hn : 0 < n)
    (hchunk : [] = (all.drop bytes.length).take n) : bytes = all := by
  obtain ⟨rest, rfl⟩ := h
  rw [List.drop_left, eq_comm, List.take_eq_nil_iff] at hchunk
  rw [hchunk.resolve_left (Nat.ne_of_gt hn), List.append_nil]

/-- There is an entry of this name, a file with these bytes. -/
def CacheDisk.Has (disk : CacheDisk) (name : CacheName) (bytes : List UInt8) : Prop :=
  ∃ inode, (name, .file inode) ∈ disk.entries ∧ (disk.file inode).bytes = bytes

theorem CacheDisk.Has.before (h : t.disk.Has name bytes) (hsame : SameBytes w t) :
    w.disk.Has name bytes := by
  obtain ⟨inode, hentry, hbytes⟩ := h
  exact ⟨inode, hsame.entries hentry, (hsame.bytes inode).symm.trans hbytes⟩

/-- What is opened lies under the name. -/
theorem answer_openFile {r : Except IoError ℕ}
    (h : answer (.openFile name : FetchCall Url) c w = some (r, u)) (hr : r = .ok file) :
    u = w ∧ (name, .file file) ∈ w.disk.entries := by
  subst hr
  obtain ⟨error, _, h⟩ | h := answer_cases h
  · cases h
  · simp only [succeed, openEntry, same] at h
    split at h <;> cases h
    case h_1 hnode =>
      obtain ⟨before, after, hentries, _⟩ := List.lookup_eq_some_iff.1 hnode
      exact ⟨rfl, hentries ▸ by simp⟩

/-- **The loop that reads an entry**; what was read so far is a beginning of the file. -/
theorem readUpTo_gives (fuel : ℕ) : ∀ (bytes : List UInt8) (remaining : ℕ) (w : FetchWorld),
      (w.disk.file file).bytes = all → bytes <+: all → max < bytes.length + remaining →
      (readUpTo (fun offset limit => call (.read file offset limit)) phase onError fuel bytes
        remaining).Gives answer (fun result _ => max < result.length ∨ result = all) w := by
  induction fuel with
  | zero => exact fun _ _ _ _ _ _ => Gives.err
  | succ fuel ih =>
    intro bytes remaining w hall hbytes hmax
    refine Ends.ite (fun hzero => Gives.pure (Or.inl (by omega))) fun _ => ?_
    refine check_gives fun _ => call_gives fun c r t ht => check_gives fun _ => ?_
    match (r : Except IoError (List UInt8)) with
    | .error error =>
      refine Ends.ite (fun _ => ih bytes remaining _ ?_ hbytes hmax) fun _ => Gives.err
      have hdisk : t.disk = w.disk := (answer_looks rfl ht).1
      exact hdisk ▸ hall
    | .ok [] =>
      obtain ⟨rfl, n, hn, hchunk⟩ := answer_read ht [] rfl
      exact Gives.pure (Or.inr (eq_of_read_nil hbytes hn (hall ▸ hchunk)))
    | .ok (byte :: more) =>
      obtain ⟨rfl, n, _, hchunk⟩ := answer_read ht _ rfl
      refine ih _ _ _ hall (append_prefix_of_read hbytes (hall ▸ hchunk)) ?_
      rw [List.length_append]
      omega

theorem readCacheFile_gives :
    (readCacheFile fuel name max : FetchM env (List UInt8)).Gives answer
      (fun bytes _ => w.disk.Has name bytes) w := by
  refine check_gives fun _ => call_gives fun c r t ht => check_gives fun _ =>
    orElse_gives fun metadata _ => ?_
  have hdisk : t.disk = w.disk := (answer_looks rfl ht).1
  refine Ends.ite (fun _ => Gives.err) fun _ => Ends.ite (fun _ => Gives.err) fun _ => ?_
  refine call_gives fun c r u hu => check_gives fun _ => orElse_gives fun file hfile => ?_
  obtain ⟨rfl, hentry⟩ := answer_openFile hu hfile
  have hmax : max < ([] : List UInt8).length + (max + 1) := by simp
  refine Gives.bind ((readUpTo_gives fuel [] _ _ rfl List.nil_prefix hmax).mono ?_)
  intro bytes v hread
  refine Ends.ite (fun _ => Gives.err) fun hle => check_gives fun _ => Gives.pure ?_
  obtain rfl := hread.resolve_left hle
  exact hdisk ▸ ⟨file, hentry, rfl⟩

/-- **What is read from the cache** are the bytes of its entries. -/
theorem readManifestPair_gives :
    (readManifestPair fuel paths : FetchM env (List UInt8 × List UInt8)).Gives answer
      (fun pair _ => w.disk.Has paths.manifest pair.1 ∧ w.disk.Has paths.signature pair.2) w := by
  refine Gives.bind (Ends.mono (Ends.and readCacheFile_gives
    (sameBytes_of_calls readCacheFile_quiet)) ?_)
  rintro r t ⟨hmanifest, hsame⟩ manifest hr
  refine Gives.bind (readCacheFile_gives.mono fun signature _ hsignature => ?_)
  exact check_gives fun _ => Gives.pure ⟨hmanifest manifest hr, hsignature.before hsame⟩

/-! ### The manifest and its signatures -/

/-- Where a pair comes from: both documents were received, or they are the bytes of the two entries
of the cache, used after a failure that allows this, and not against a manifest that was received.
-/
def Selected (disk : CacheDisk) (paths : ManifestCachePaths) (manifest signature : List UInt8)
    (source : ManifestSource) (w : FetchWorld) : Prop :=
  match source with
  | .verifiedCacheFallback =>
    (disk.Has paths.manifest manifest ∧ disk.Has paths.signature signature) ∧
      (∃ part, part ≠ .artifact ∧ Excused part w) ∧
      ∀ bytes, .received .manifest bytes ∈ w.log → bytes = manifest
  | _ => .received .manifest manifest ∈ w.log ∧ .received .signature signature ∈ w.log

/-- Nothing was heard about the manifest and its signatures yet. -/
def Unheard (w : FetchWorld) : Prop := ∀ event ∈ w.log, event.part = .artifact

variable {disk : CacheDisk}

theorem Excused.news {S : NetworkEvent → Prop} (h : Excused part w) (hnews : News S w t) :
    Excused part t := by
  obtain ⟨event, hevent, hpart⟩ := h
  exact ⟨event, hnews.1 hevent, hpart⟩

theorem Selected.news (h : Selected disk paths manifest signature source w)
    (hnews : News (fun event => event.part = .artifact) w t) :
    Selected disk paths manifest signature source t := by
  cases source with
  | verifiedCacheFallback =>
    obtain ⟨hcached, ⟨part, hpart, hexcused⟩, hsame⟩ := h
    refine ⟨hcached, ⟨part, hpart, hexcused.news hnews⟩, fun bytes hbytes => ?_⟩
    exact hsame bytes ((hnews.2 _ hbytes).resolve_right nofun)
  | network | file => exact ⟨hnews.1 h.1, hnews.1 h.2⟩

theorem Unheard.news (h : Unheard w) (hnews : News (fun event => event.part = .artifact) w t) :
    Unheard t :=
  fun event he => (hnews.2 event he).elim (h event) id

/-- What `retrieve_manifest_pair` returns. -/
def Retrieved {Version : Type} (w : FetchWorld) :
    Except (ManifestPairRetrievalError Version) (List UInt8 × List UInt8) → Prop
  | .ok (manifest, signature) =>
    .received .manifest manifest ∈ w.log ∧ .received .signature signature ∈ w.log
  | .error (.manifest error) => error.isCacheFallbackEligible = true →
      Excused .manifest w ∧ ∀ bytes, .received .manifest bytes ∉ w.log
  | .error (.signature freshManifest error) => error.isCacheFallbackEligible = true →
      Excused .signature w ∧ ∀ bytes, .received .manifest bytes ∈ w.log → bytes = freshManifest

theorem retrieveManifestPair_gives (h : Unheard w) :
    (retrieveManifestPair fuel mode pairUrl signatureUrl).Gives answer (fun r t =>
      Retrieved t r) w := by
  have hnone (bytes : List UInt8) : .received .manifest bytes ∉ w.log :=
    fun hmem => nomatch h _ hmem
  refine Gives.bind (Ends.attempt (getBounded_ends.mono fun r t hgot => ?_))
  rintro _ ⟨⟩
  cases r with
  | error error =>
    refine Gives.pure fun heligible => ?_
    obtain ⟨hnews, hexcused⟩ := hgot heligible
    refine ⟨hexcused, fun bytes hbytes => ?_⟩
    exact (hnews.2 _ hbytes).elim (hnone bytes) fun hunread => hunread.2 bytes rfl
  | ok manifest =>
    obtain ⟨hnews, hreceived⟩ := hgot
    have honly : ∀ bytes, .received .manifest bytes ∈ t.log → bytes = manifest :=
      fun bytes hbytes => (hnews.2 _ hbytes).elim (fun h' => absurd h' (hnone bytes))
        fun hread => hread.2 bytes rfl
    refine Gives.bind (Ends.attempt (getBounded_ends.mono fun r u hgot => ?_))
    rintro _ ⟨⟩
    cases r with
    | error error =>
      refine Gives.pure fun heligible => ?_
      obtain ⟨hnews', hexcused⟩ := hgot heligible
      exact ⟨hexcused, fun bytes hbytes => honly bytes ((hnews'.2 _ hbytes).resolve_right nofun)⟩
    | ok signature => exact Gives.pure ⟨hgot.1.1 hreceived, hgot.2⟩

/-- The pair in the cache, and what was heard meanwhile. -/
theorem readCached_ends (hsame : SameBytes w u) :
    (readManifestPair fuel paths : FetchM env (List UInt8 × List UInt8)).attempt.Gives answer
      (fun cached t => News (fun event => event.part = .artifact) u t ∧ ∀ pair, cached = .ok pair →
        w.disk.Has paths.manifest pair.1 ∧ w.disk.Has paths.signature pair.2) u := by
  refine Ends.attempt (Ends.mono (Ends.and readManifestPair_gives
    (news_of_calls (offPair_of_quiet readManifestPair_quiet))) ?_)
  rintro r t ⟨hpair, hnews⟩ _ ⟨⟩
  refine ⟨hnews, fun pair hr => ?_⟩
  obtain ⟨hmanifest, hsignature⟩ := hpair pair hr
  exact ⟨hmanifest.before hsame, hsignature.before hsame⟩

/-- **The cache replaces only what could not be retrieved**, by what lay in it at the start. -/
theorem recoverCachedManifestPair_gives {retrievalError : ManifestPairRetrievalError env.Version}
    (h : Retrieved u (.error retrievalError)) (hsame : SameBytes w u) :
    (recoverCachedManifestPair fuel paths retrievalError).Gives answer
      (fun pair t => Selected w.disk paths pair.1 pair.2.1 pair.2.2 t) u := by
  refine check_gives fun expired => ?_
  have hsame : SameBytes w { u with expired := expired } := ⟨hsame.bytes, hsame.entries⟩
  cases retrievalError with
  | manifest error =>
    refine Ends.ite (fun _ => Gives.err) fun heligible => ?_
    obtain ⟨hexcused, hnone⟩ := h (by simpa using heligible)
    refine Gives.bind ((readCached_ends hsame).mono ?_)
    rintro cached t ⟨hnews, hcached⟩
    cases cached with
    | error cacheError => exact Ends.ite (fun _ => Gives.err) fun _ => Gives.err
    | ok pair =>
      refine check_gives fun _ => Gives.pure ⟨hcached pair rfl,
        ⟨.manifest, nofun, hexcused.news hnews⟩, ?_⟩
      exact fun bytes hbytes => absurd ((hnews.2 _ hbytes).resolve_right nofun) (hnone bytes)
  | signature freshManifest error =>
    refine Ends.ite (fun _ => Gives.err) fun heligible => ?_
    obtain ⟨hexcused, honly⟩ := h (by simpa using heligible)
    refine Gives.bind ((readCached_ends hsame).mono ?_)
    rintro cached t ⟨hnews, hcached⟩
    cases cached with
    | error cacheError => exact Ends.ite (fun _ => Gives.err) fun _ => Gives.err
    | ok pair =>
      -- the manifest that was received is the one in the cache, or the fetch fails
      refine Ends.ite (fun _ => Gives.err) fun hfresh => check_gives fun _ => ?_
      obtain rfl : freshManifest = pair.1 := not_not.1 hfresh
      refine Gives.pure ⟨hcached pair rfl, ⟨.signature, nofun, hexcused.news hnews⟩, ?_⟩
      exact fun bytes hbytes => honly bytes ((hnews.2 _ hbytes).resolve_right nofun)

theorem networkManifestPair_gives (h : Unheard u) (hsame : SameBytes w u) :
    (networkManifestPair fuel mode paths pairUrl signatureUrl).Gives answer
      (fun pair t => Selected w.disk paths pair.1 pair.2.1 pair.2.2 t) u := by
  refine Gives.bind (Ends.mono (Ends.and (retrieveManifestPair_gives h)
    (sameBytes_of_reads retrieveManifestPair_reads)) ?_)
  rintro _ t ⟨hretrieved, hsame'⟩ r hr
  have hretrieved := hretrieved r hr
  cases r with
  | ok pair => exact Gives.pure hretrieved
  | error error => exact recoverCachedManifestPair_gives hretrieved (hsame.trans hsame')

/-- **Where the manifest and its signatures come from.** -/
theorem selectManifestPair_gives (h : Unheard u) (hsame : SameBytes w u) :
    (selectManifestPair fuel mode paths pairUrl signatureUrl).Gives answer
      (fun pair t => Selected w.disk paths pair.1 pair.2.1 pair.2.2 t) u := by
  have hnetwork : (networkManifestPair fuel mode paths pairUrl signatureUrl).Gives answer
      (fun pair t => Selected w.disk paths pair.1 pair.2.1 pair.2.2 t) u :=
    networkManifestPair_gives h hsame
  refine Ends.ite (fun _ => ?_) fun _ => Ends.ite (fun _ => hnetwork) fun _ =>
    Ends.ite (fun _ => hnetwork) fun _ => Gives.err
  refine Gives.bind (readFileUrlBounded_ends.mono ?_)
  rintro _ t hmanifest manifest rfl
  refine Gives.bind (readFileUrlBounded_ends.mono ?_)
  rintro _ u hsignature signature rfl
  exact Gives.pure ⟨hsignature.1.1 hmanifest.2, hsignature.2⟩

/-! ### The artifact -/

/-- An open file with the size and the digest of an artifact. -/
def Holds (env : FetchEnv) (artifact : Artifact) (file : ℕ) (w : FetchWorld) : Prop :=
  (w.disk.file file).bytes.length = artifact.size ∧
    sha256Hex env.toPackages (w.disk.file file).bytes = artifact.sha256

theorem Holds.sameBytes (h : Holds env artifact file w) (hsame : SameBytes w t) :
    Holds env artifact file t := by
  rw [Holds, hsame.bytes file]
  exact h

/-- What `digest_open_file` reports: too many bytes, or the size and the digest of the file. -/
def Digested (env : FetchEnv) (max file : ℕ) (w : FetchWorld) (result : ℕ × String) : Prop :=
  max < result.1 ∨ result = ((w.disk.file file).bytes.length,
    sha256Hex env.toPackages (w.disk.file file).bytes)

/-- **The loop that hashes a file**; what was hashed so far is a beginning of the file. -/
theorem digestLoop_gives (fuel : ℕ) :
    ∀ (bytes : List UInt8) (w : FetchWorld), bytes <+: (w.disk.file file).bytes →
      (digestLoop file path max fuel bytes : FetchM env (ℕ × String)).Gives answer
        (fun result t => Digested env max file t result) w := by
  induction fuel with
  | zero => exact fun _ _ _ => Gives.err
  | succ fuel ih =>
    intro bytes w hbytes
    refine check_gives fun _ => call_gives fun c r t ht => check_gives fun _ => ?_
    match (r : Except IoError (List UInt8)) with
    | .error error =>
      refine Ends.ite (fun _ => ih bytes _ ?_) fun _ => Gives.err
      have hdisk : t.disk = w.disk := (answer_looks rfl ht).1
      rw [← hdisk] at hbytes
      exact hbytes
    | .ok [] =>
      obtain ⟨rfl, n, hn, hchunk⟩ := answer_read ht [] rfl
      obtain rfl := eq_of_read_nil hbytes hn hchunk
      exact Gives.pure (Or.inr rfl)
    | .ok (byte :: more) =>
      obtain ⟨rfl, n, _, hchunk⟩ := answer_read ht _ rfl
      refine Ends.ite (fun hmax => Gives.pure (Or.inl hmax)) fun _ => check_gives fun _ => ?_
      exact ih _ _ (append_prefix_of_read hbytes hchunk)

theorem digestOpenFile_gives :
    (digestOpenFile fuel file path max : FetchM env (ℕ × String)).Gives answer
      (fun result t => Digested env max file t result) w := by
  refine check_gives fun _ => call_gives fun c r t ht => check_gives fun _ => ?_
  refine orElse_gives fun _ _ => Gives.bind (Ends.attempt ?_)
  refine Ends.mono (digestLoop_gives fuel [] _ List.nil_prefix) ?_
  rintro r u hdigested _ ⟨⟩
  cases r with
  | error error =>
    exact Ends.ite (fun _ => Gives.err) fun _ => Gives.bind
      (Ends.mono (sameBytes_of_calls (w := u) rewind_quiet) fun _ _ _ _ _ => Gives.err)
  | ok result =>
    refine Gives.bind (Ends.mono (sameBytes_of_calls rewind_quiet) fun _ v hsame _ _ => ?_)
    refine Gives.pure ?_
    rw [Digested, hsame.bytes file]
    exact hdigested result rfl

/-- The bytes under the lease are the right ones. -/
theorem verifyLeased_gives (hsize : artifact.size ≤ artifactMaxBytes) :
    (verifyLeased fuel file path artifact : FetchM env Bool).Gives answer
      (fun right t => right = true → Holds env artifact file t) w := by
  refine check_gives fun _ => check_gives fun _ => Gives.bind ?_
  refine digestOpenFile_gives.mono fun result t hdigested => ?_
  refine Ends.ite (fun _ => Gives.pure nofun) fun hright => check_gives fun _ =>
    Gives.pure fun _ => ?_
  obtain ⟨hlength, hdigest⟩ : result.1 = artifact.size ∧ result.2 = artifact.sha256 := by
    simpa using hright
  rcases hdigested with hmax | rfl
  · omega
  · exact ⟨hlength, hdigest⟩

/-- **An opened artifact has the bytes it should have.** -/
theorem openVerifiedCachedArtifact_gives (hsize : artifact.size ≤ artifactMaxBytes) :
    (openVerifiedCachedArtifact fuel name artifact : FetchM env (Option ℕ)).Gives answer
      (fun opened t => ∀ file, opened = some file → Holds env artifact file t) w := by
  refine check_gives fun _ => call_gives fun c r t ht => check_gives fun _ => ?_
  match (r : Except IoError Metadata) with
  | .error error => exact Ends.ite (fun _ => Gives.pure nofun) fun _ => Gives.err
  | .ok metadata =>
    refine Ends.ite (fun _ => ?_) fun _ => ?_
    · exact Gives.bind (Ends.mono (sameBytes_of_calls removeInvalidCacheEntry_quiet)
        fun _ _ _ _ _ => Gives.pure nofun)
    refine call_gives fun c r t ht => check_gives fun _ => orElse_gives fun file _ =>
      check_gives fun _ => call_gives fun c r t ht => ?_
    match (r : Except IoError Bool) with
    | .ok false => exact check_gives fun _ => Gives.err
    | .error error => exact check_gives fun _ => Gives.err
    | .ok true =>
      refine Gives.bind (Gives.bind (Ends.attempt ?_))
      refine Ends.mono (verifyLeased_gives hsize) ?_
      rintro r u hright _ ⟨⟩
      cases r with
      | error error => exact call_gives fun _ _ _ _ => Gives.err
      | ok right =>
        refine Gives.pure (Ends.ite (fun htrue => Gives.pure ?_) fun _ => ?_)
        · rintro _ ⟨⟩
          exact hright right rfl htrue
        · exact call_gives fun _ _ _ _ => Gives.bind (Ends.mono
            (sameBytes_of_calls removeInvalidCacheEntry_quiet)
            fun _ _ _ _ _ => Gives.pure nofun)

/-! ### A fetch -/

variable {pk : Packages} {version : pk.Version}

open Checks in
/-- The sizes a manifest signs are within the limit. -/
theorem parseArtifacts_size {raws : List RawArtifact} :
    ∀ {targets : List AgentTarget} {artifacts : List Artifact},
      parseArtifacts pk version targets raws = .ok artifacts →
      ∀ artifact ∈ artifacts, artifact.size ≤ artifactMaxBytes := by
  induction raws with
  | nil =>
    rintro targets artifacts ⟨⟩ artifact hmem
    cases hmem
  | cons raw raws ih =>
    intro targets artifacts h artifact hmem
    simp only [parseArtifacts, bind_eq_ok, okOr_eq_ok, exists_const, rejectIf_eq_ok,
      Bool.not_eq_false', Bool.and_eq_true, decide_eq_true_eq, pure_eq_ok,
      Except.ok.injEq] at h
    obtain ⟨target, _, _, _, _, ⟨_, hsize⟩, rest, hrest, rfl⟩ := h
    rcases List.mem_cons.1 hmem with rfl | hmem
    · exact hsize
    · exact ih hrest artifact hmem

open Checks in
theorem verifyManifest_size {manifestBytes signatureBytes : List UInt8} {keys : TrustedKeySet pk}
    {threshold protocolVersion : ℕ} {verified : VerifiedManifest pk.Version}
    (h : verifyManifest manifestBytes signatureBytes keys threshold version protocolVersion =
      .ok verified) :
    ∀ artifact ∈ verified.manifest.artifacts, artifact.size ≤ artifactMaxBytes := by
  simp only [verifyManifest, parseManifest, bind_eq_ok, mapError_eq_ok, rejectIf_eq_ok,
    exists_const, pure_eq_ok, Except.ok.injEq] at h
  obtain ⟨_, _, _, _, _, _, ⟨_, raw, _, _, _, _, _, _, _, _, _, artifacts, hartifacts, rfl⟩, rfl⟩ :=
    h
  exact parseArtifacts_size hartifacts

/-- What holds when a fetch has succeeded. -/
structure Fetched (disk : CacheDisk) (paths : ManifestCachePaths) (config : FetchConfig env)
    (result : FetchedArtifact env) (w : FetchWorld) (manifest signature : List UInt8) : Prop where
  verified : verifyManifest manifest signature config.trustedKeys config.signatureThreshold
    config.expectedVersion config.expectedProtocolVersion = .ok result.verifiedManifest
  target : result.verifiedManifest.manifest.artifacts.find?
    (fun artifact => artifact.target = config.target) = some result.artifact
  bytes : Holds env result.artifact result.artifactLease w
  selected : Selected disk paths manifest signature result.manifestSource w

theorem finishFetch_gives (hholds : Holds env artifact file w)
    (hselected : Selected disk paths manifest signature source w) :
    (orThen (.unlock file) (finishFetch maxBytes artifactPath paths artifactSize pairSize) :
      FetchM env Unit).Gives answer
      (fun _ t => Holds env artifact file t ∧
        Selected disk paths manifest signature source t) w := by
  have hcalls : (orThen (.unlock file) (finishFetch maxBytes artifactPath paths
    artifactSize pairSize) :
      FetchM env Unit).Calls Quiet := orThen_calls ⟨rfl, rfl⟩ finishFetch_quiet
  refine Ends.mono ((sameBytes_of_calls hcalls).and (news_of_calls (offPair_of_quiet hcalls))) ?_
  rintro _ t ⟨hsame, hnews⟩ _ _
  exact ⟨hholds.sameBytes hsame, hselected.news hnews⟩

theorem fetchArtifact_gives {verified : VerifiedManifest env.Version}
    (hverified : verifyManifest manifest signature config.trustedKeys config.signatureThreshold
      config.expectedVersion config.expectedProtocolVersion = .ok verified)
    (htarget : verified.manifest.artifacts.find? (fun artifact => artifact.target = config.target) =
      some artifact) (hselected : Selected disk paths manifest signature source w) :
    (fetchArtifact fuel mode config paths pairSize source verified artifact).Gives answer
      (fun result t => Fetched disk paths config result t manifest signature) w := by
  have hsize : artifact.size ≤ artifactMaxBytes :=
    verifyManifest_size hverified artifact (List.mem_of_find?_eq_some htarget)
  have hopen (u : FetchWorld) (hselected : Selected disk paths manifest signature source u) :
      (openVerifiedCachedArtifact fuel ⟨.artifacts, artifact.sha256⟩ artifact :
        FetchM env (Option ℕ)).Gives answer (fun opened t =>
          (∀ file, opened = some file → Holds env artifact file t) ∧
            Selected disk paths manifest signature source t) u := by
    refine Ends.mono (Ends.and (openVerifiedCachedArtifact_gives hsize)
      (news_of_calls (offPair_of_quiet openVerifiedCachedArtifact_quiet))) ?_
    rintro r t ⟨hholds, hnews⟩ opened hr
    exact ⟨hholds opened hr, hselected.news hnews⟩
  refine check_gives fun _ => Gives.bind (Gives.mono (hopen _ ?_) ?_)
  · exact hselected
  rintro opened t ⟨hholds, hselected⟩
  cases opened with
  | some file =>
    refine Gives.bind ((finishFetch_gives (hholds file rfl) hselected).mono ?_)
    rintro _ u ⟨hholds, hselected⟩
    exact Gives.pure ⟨hverified, htarget, hholds, hselected⟩
  | none =>
    -- the artifact is installed, and then opened and hashed like one that was there
    refine Gives.bind (Ends.mono (news_of_calls installArtifact_off) ?_)
    rintro _ u hnews artifactSource -
    refine Gives.bind ((hopen _ (hselected.news hnews)).mono ?_)
    rintro opened v ⟨hholds, hselected⟩
    cases opened with
    | none => exact Gives.err
    | some file =>
      refine Gives.bind ((finishFetch_gives (hholds file rfl) hselected).mono ?_)
      rintro _ u ⟨hholds, hselected⟩
      exact Gives.pure ⟨hverified, htarget, hholds, hselected⟩

theorem fetchSelected_gives (hselected : Selected disk paths manifest signature source w) :
    (fetchSelected fuel mode config paths manifest signature source).Gives answer
      (fun result t => Fetched disk paths config result t manifest signature) w := by
  refine check_gives fun _ => check_gives fun _ => ?_
  cases hverified : verifyManifest manifest signature config.trustedKeys config.signatureThreshold
      config.expectedVersion config.expectedProtocolVersion with
  | error error => exact Gives.err
  | ok verified =>
    refine check_gives fun _ => ?_
    cases htarget : verified.manifest.artifacts.find?
        (fun artifact => artifact.target = config.target) with
    | none => exact Gives.err
    | some artifact =>
      refine check_gives fun _ => Ends.ite (fun _ => Gives.err) fun _ => ?_
      refine Gives.bind (Ends.mono (news_of_calls rememberManifestPair_off) ?_)
      rintro _ t hnews _ -
      exact fetchArtifact_gives hverified htarget (hselected.news hnews)

/-- The world when a fetch starts: anything can lie in the cache. -/
def FetchWorld.start (disk : CacheDisk) (leases : List ℕ) (now sequence : ℕ) : FetchWorld where
  disk := disk
  leases := leases
  expired := false
  now := now
  sequence := sequence
  body := []
  log := []

/-- The entries of the cache for a manifest. -/
def pairNames (env : FetchEnv) (url : env.urls.Url) : ManifestCachePaths :=
  let key := sha256Hex env.toPackages (env.urls.text url)
  ⟨⟨.manifests, key ++ ".json"⟩, ⟨.manifests, key ++ ".sig"⟩⟩

theorem manifestPaths_gives :
    (manifestPaths url).Gives answer (fun paths _ => paths = pairNames env url) w :=
  check_gives fun _ => check_gives fun _ => Gives.pure rfl

theorem fetchVerifiedArtifactInner_gives (h : Unheard w) :
    (fetchVerifiedArtifactInner fuel mode config).Gives answer
      (fun result t => ∃ manifest signature,
        Fetched w.disk (pairNames env config.manifestUrl) config result t
          manifest signature) w := by
  refine Ends.ite (fun _ => Gives.err) fun _ => Ends.ite (fun _ => Gives.err) fun _ =>
    check_gives fun _ => ?_
  cases env.urls.signatureUrl mode config.manifestUrl with
  | error error => exact Gives.err
  | ok signatureUrl =>
    refine check_gives fun _ => ?_
    -- until the pair is selected, nothing was heard about it, and no entry of the cache was
    -- replaced
    refine Gives.bind (Ends.mono (looked_of_calls openCache_quiet) ?_)
    rintro _ t ⟨hnews, hsame⟩ _ -
    have h := Unheard.news h hnews
    refine Gives.bind (Ends.mono (looked_of_calls evictToBudget_quiet) ?_)
    rintro _ u ⟨hnews, hsame'⟩ _ -
    have h := h.news hnews
    have hsame := SameBytes.trans hsame hsame'
    refine Gives.bind (Ends.mono (Ends.and manifestPaths_gives
      (looked_of_calls manifestPaths_quiet)) ?_)
    rintro _ v ⟨hpaths, hnews, hsame'⟩ paths hr
    obtain rfl := hpaths paths hr
    refine Gives.bind ((selectManifestPair_gives (h.news hnews) (hsame.trans hsame')).mono ?_)
    rintro ⟨manifest, signature, source⟩ x hselected
    exact (fetchSelected_gives hselected).mono fun _ _ hfetched => ⟨manifest, signature, hfetched⟩

/-- **A fetch fails closed.** Whatever lies in the cache and whatever the network answers, a fetch
that succeeds has verified the manifest it used under the configured keys, threshold, version and
protocol; the file it returns has the size and the digest this manifest signs for the configured
target; and a pair that was not received is the one that lay in the cache, used only after a
timeout, a failed connection, a status 429 or 5xx, and not against another manifest that was
received. -/
theorem fetch_fails_closed (fuel : ℕ) (mode : RedirectPolicyMode) (config : FetchConfig env)
    (disk : CacheDisk) (leases : List ℕ) (now sequence : ℕ) (choices : List FetchChoice)
    (result : FetchedArtifact env) (w : FetchWorld)
    (h : (fetchVerifiedArtifactInner fuel mode config).exec answer choices
      (.start disk leases now sequence) = some (.ok result, w)) :
    ∃ manifest signature,
      verifyManifest manifest signature config.trustedKeys config.signatureThreshold
        config.expectedVersion config.expectedProtocolVersion = .ok result.verifiedManifest ∧
      result.verifiedManifest.manifest.artifacts.find?
        (fun artifact => artifact.target = config.target) = some result.artifact ∧
      (w.disk.file result.artifactLease).bytes.length = result.artifact.size ∧
      sha256Hex env.toPackages (w.disk.file result.artifactLease).bytes = result.artifact.sha256 ∧
      Selected disk (pairNames env config.manifestUrl) manifest signature
        result.manifestSource w := by
  have hstart : Unheard (.start disk leases now sequence) := nofun
  obtain ⟨manifest, signature, hfetched⟩ := (fetchVerifiedArtifactInner_gives hstart).exec h
  exact ⟨manifest, signature, hfetched.verified, hfetched.target, hfetched.bytes.1,
    hfetched.bytes.2, hfetched.selected⟩

namespace Release

def manifestUrl : String := "https://registry.example/manifest.json"

/-- As in `packages`, with the digests of the artifact and of the URL. -/
def fetchPackages : Packages :=
  { packages with
    sha256 := fun bytes =>
      if bytes = ascii ["x"] then
        #v[45, 113, 22, 66, 183, 38, 176, 68, 1, 98, 124, 169, 251, 172, 50, 245, 200, 83,
          15, 177, 144, 60, 196, 219, 2, 37, 135, 23, 146, 26, 72, 129]
      else if bytes = ascii [manifestUrl] then
        #v[63, 108, 67, 204, 204, 44, 92, 239, 95, 216, 54, 217, 108, 64, 150, 157, 148, 154,
          149, 82, 65, 136, 89, 224, 226, 237, 128, 137, 215, 1, 136, 15]
      else packages.sha256 bytes }

def fetchEnv : FetchEnv where
  toPackages := fetchPackages
  urls :=
    { Url := String
      scheme := fun _ => "https"
      text := fun url => ascii [url]
      redacted := id
      toFilePath := fun _ => none
      signatureUrl := fun _ url => .ok (url ++ ".sig")
      artifactUrl := fun _ _ filename => .ok ("https://registry.example/" ++ filename)
      resolveRedirect := fun _ url _ =>
        .error (url, "<invalid>", "Location is not a valid URL reference") }
  showError := fun _ => "registry operation failed"
  process := "1"

def fetchConfig : FetchConfig fetchEnv where
  manifestUrl := manifestUrl
  target := .x8664UnknownLinuxMusl
  expectedVersion := (0, 2, 0)
  expectedProtocolVersion := 8
  trustedKeys :=
    { keys := [("release", ⟨publicKey, sha256Hex fetchPackages publicKey.toList⟩)]
      distinctIds := by simp
      distinctMaterial := by simp }
  signatureThreshold := 1
  cacheMaxBytes := 1000
  timeout := 30

/-- The release is in the cache. -/
def cached : CacheDisk where
  entries :=
    [(⟨.manifests, "3f6c43cccc2c5cef5fd836d96c40969d949a9552418859e0e2ed8089d701880f.json"⟩,
      .file 0),
      (⟨.manifests, "3f6c43cccc2c5cef5fd836d96c40969d949a9552418859e0e2ed8089d701880f.sig"⟩,
      .file 1),
      (⟨.artifacts, "2d711642b726b04401627ca9fbac32f5c8530fb1903cc4db02258717921a4881"⟩, .file 2)]
  file inode :=
    if inode = 0 then ⟨manifestBytes, 0⟩ else if inode = 1 then ⟨documentBytes, 0⟩
    else ⟨ascii ["x"], 0⟩
  next := 3
  distinct := by decide
  lt := by
    intro name inode h
    simp only [List.mem_cons, List.not_mem_nil, or_false, Prod.mk.injEq, CacheNode.file.injEq] at h
    rcases h with ⟨-, rfl⟩ | ⟨-, rfl⟩ | ⟨-, rfl⟩ <;> decide

/-- The registry is not available: the pair in the cache is used. -/
def unavailable : List FetchChoice :=
  let ok n := List.replicate n FetchChoice.ok
  let readDir := [FetchChoice.failing [] notFound]
  let read := [FetchChoice.count 1000]
  ok 16 ++ readDir ++ ok 6 ++ readDir ++ ok 8 ++ [.head ⟨503, none, none⟩] ++
    ok 8 ++ read ++ ok 2 ++ read ++ ok 8 ++ read ++ ok 2 ++ read ++
    ok 22 ++ read ++ ok 3 ++ read ++ ok 25 ++ readDir ++ ok 6 ++ readDir ++ ok 5

end Release

open Release in
/-- A registry that answers with status 503, and a release in the cache. -/
theorem fetch_fails_closed_cached : ∃ result w,
    (fetchVerifiedArtifactInner 10 .production fetchConfig).exec answer unavailable
      (.start cached [] 7 0) = some (.ok result, w) ∧
    result.manifestSource = .verifiedCacheFallback ∧ ∃ manifest signature,
      verifyManifest manifest signature fetchConfig.trustedKeys fetchConfig.signatureThreshold
        fetchConfig.expectedVersion fetchConfig.expectedProtocolVersion =
          .ok result.verifiedManifest ∧
      result.verifiedManifest.manifest.artifacts.find?
        (fun artifact => artifact.target = fetchConfig.target) = some result.artifact ∧
      (w.disk.file result.artifactLease).bytes.length = result.artifact.size ∧
      sha256Hex fetchEnv.toPackages (w.disk.file result.artifactLease).bytes =
        result.artifact.sha256 ∧
      Selected cached (pairNames fetchEnv fetchConfig.manifestUrl) manifest signature
        result.manifestSource w := by
  have hrun : ((fetchVerifiedArtifactInner 10 .production fetchConfig).exec answer unavailable
      (.start cached [] 7 0)).bind (fun ended =>
      ended.1.toOption.map FetchedArtifact.manifestSource) =
        some .verifiedCacheFallback := by decide +kernel
  obtain ⟨⟨ended, w⟩, hexec, hsource⟩ := Option.bind_eq_some_iff.1 hrun
  cases ended with
  | error error => cases hsource
  | ok result =>
    refine ⟨result, w, hexec, Option.some.inj hsource, ?_⟩
    exact fetch_fails_closed 10 .production fetchConfig cached [] 7 0 unavailable result w hexec

end RemoteMirror.Registry
