/-
  `download_if_new` against a server whose file changes.

  1. **Server** — the file's content and its `__revisions` value, and, ghost, every value it has had.
     A change of the content brings a value the file never had (`change`).

  2. **Calls** — any number of calls of one client are under way, each between its start and its
     return; every request is answered on its own, so the server may change between the two requests
     of a call and between those of different calls.  A call that returns `downloaded = True` leaves
     its revision and its bytes in the client's store; a failed call leaves nothing.

  3. **Answers** — what a request comes to is arbitrary, except that metadata that parses carries the
     server's value and a successful download carries its content, of that moment.

  The steps are those of the code: `plan_then_deliver` puts them together to `downloadIfNew`.
-/
import Bedrock.Lib.Transition
import Bedrock.Protocol.InvisibleFolder

open Lib.Fallible Lib.Transition Bedrock.Python

namespace Bedrock.Protocol

/-! ## The system -/

/-- The file on the server, with its revision. -/
structure Server where
  /-- The file's bytes. -/
  content : Bytes
  /-- The value of `__revisions`. -/
  revision : Str
  /-- Ghost: every value `__revisions` has had, the present one included. -/
  history : List Str

/-- What the client keeps: a revision and the bytes that were delivered with it. -/
abbrev Stored := Option (Str × Bytes)

/-- How far a call is. -/
inductive Progress
  /-- Started with what was stored then. -/
  | started (known : Stored)
  /-- Its metadata request was answered, and the file has to be downloaded. -/
  | planned (current : InvisibleFolderMetadata) (revision : Str)

/-- Ghost: a call that found nothing new, with what was stored when it started and the server's
    content when its metadata request was answered. -/
structure NotNew where
  /-- What the call started with. -/
  known : Stored
  /-- The server's bytes when its metadata request was answered. -/
  content : Bytes

/-- The server, what the client keeps, and the calls under way. -/
structure Sync where
  /-- The file on the server. -/
  server : Server
  /-- The revision and bytes the program keeps. -/
  stored : Stored
  /-- The calls under way. -/
  calls : Nat → Option Progress
  /-- History: the calls that ended without a download. -/
  notNew : List NotNew

/-- The revision a call passes on: the stored one, or the default. -/
def knownRevision (known : Stored) : Str := (known.map Prod.fst).getD []

/-- One thing that happens. -/
inductive Event
  /-- The file gets this content and this revision. -/
  | change (content : Bytes) (revision : Str)
  /-- A call begins with the stored revision. -/
  | start (call : Nat)
  /-- Its metadata request is answered. -/
  | answerMetadata (call : Nat) (http : HTTPResponse)
  /-- Its download is answered, and written. -/
  | answerDownload (call : Nat) (d : Delivery)

section Sync

variable [CallStack]

/-- The metadata request of a call is answered: it fails, finds nothing new, or goes on. -/
def onMetadata (config : Config) (referenceId : Str) (s : Sync) (call : Nat) (known : Stored)
    (http : HTTPResponse) : Sync :=
  match metadata config referenceId [REVISIONS_KEY] http with
  | .error _ => { s with calls := Function.update s.calls call none }
  | .ok current =>
    match planDownload current (knownRevision known) with
    | .error _ => { s with calls := Function.update s.calls call none }
    | .ok (revision, new) =>
      if new then { s with calls := Function.update s.calls call (some (.planned current revision)) }
      else
        { s with
          calls := Function.update s.calls call none
          notNew := s.notNew ++ [⟨known, s.server.content⟩] }

/-- The download request of a call is answered: it fails, or its result is stored. -/
def onDownload (config : Config) (referenceId : Str) (destination : Option Str) (s : Sync)
    (call : Nat) (current : InvisibleFolderMetadata) (revision : Str) (d : Delivery) : Sync :=
  match deliver config referenceId destination current revision d with
  | .error _ => { s with calls := Function.update s.calls call none }
  | .ok result =>
    { s with
      calls := Function.update s.calls call none
      stored := result.delivered.map fun bytes => (result.revision, bytes) }

/-- A change on the server, the start of a call, or one answer to it. -/
def syncStep (config : Config) (referenceId : Str) (destination : Option Str) (s : Sync) :
    Event → Sync
  | .change content revision =>
    { s with server := ⟨content, revision, s.server.history ++ [revision]⟩ }
  | .start call =>
    match s.calls call with
    | none => { s with calls := Function.update s.calls call (some (.started s.stored)) }
    | some _ => s
  | .answerMetadata call http =>
    match s.calls call with
    | some (.started known) => onMetadata config referenceId s call known http
    | _ => s
  | .answerDownload call d =>
    match s.calls call with
    | some (.planned current revision) =>
      onDownload config referenceId destination s call current revision d
    | _ => s

/-- What the server promises of an event: a change brings a revision the file never had, and the
    answers are about the file as it is. -/
def Honest (s : Sync) : Event → Prop
  | .change _ revision => revision ∉ s.server.history
  | .start _ => True
  | .answerMetadata _ http => ∀ text current entry, decodeUtf8 http.body = .ok text →
      parseMetadata text = .ok current → current.get REVISIONS_KEY = some entry →
      entry.value = s.server.revision
  | .answerDownload _ d => d.http.ok = true → d.http.body = s.server.content

/-- A file that was never synchronised. -/
def Sync.new (content : Bytes) (revision : Str) : Sync where
  server := ⟨content, revision, [revision]⟩
  stored := none
  calls := fun _ => none
  notNew := []

/-! ## The steps are the code's -/

/-- **The two halves** of a call make up `download_if_new`. -/
theorem plan_then_deliver (config : Config) (referenceId : Str) (known : Stored)
    (destination : Option Str) (http : HTTPResponse) (d : Delivery) :
    downloadIfNew config referenceId (knownRevision known) destination http d =
      (do
        let current ← metadata config referenceId [REVISIONS_KEY] http
        let plan ← planDownload current (knownRevision known)
        if plan.2 then deliver config referenceId destination current plan.1 d
        else return ⟨false, plan.1, current, none, none⟩) := rfl

/-- What was delivered with a revision is the download's body. -/
theorem deliver_eq_ok {config : Config} {referenceId revision : Str} {destination : Option Str}
    {current : InvisibleFolderMetadata} {d : Delivery} {result : DownloadIfNewResult}
    (h : deliver config referenceId destination current revision d = .ok result) :
    d.http.ok = true ∧ result.revision = revision ∧ result.delivered = some d.http.body := by
  obtain ⟨payload, hdownload, h⟩ := bind_eq_ok.mp h
  obtain ⟨_, _, hdownload⟩ := bind_eq_ok.mp hdownload
  obtain ⟨_, _, hdownload⟩ := bind_eq_ok.mp hdownload
  -- only a good answer has a payload, and it is the body
  have hpayload : d.http.ok = true ∧ payload = d.http.body := by
    unfold handleDownloadResponse at hdownload
    split at hdownload
    · obtain ⟨message, _, hdownload⟩ := bind_eq_ok.mp hdownload
      split at hdownload
      · cases hdownload
      · cases hdownload
    · rename_i hok
      exact ⟨by simpa using hok, (Except.ok.inj hdownload).symm⟩
  obtain ⟨hok, rfl⟩ := hpayload
  -- with or without a destination, the payload is what is delivered
  cases destination with
  | none =>
    obtain rfl := Except.ok.inj h
    exact ⟨hok, rfl, rfl⟩
  | some path =>
    obtain ⟨_, _, h⟩ := bind_eq_ok.mp h
    obtain rfl := Except.ok.inj h
    exact ⟨hok, rfl, rfl⟩

omit [CallStack] in
/-- The revision a plan works with is the metadata's. -/
theorem planDownload_eq_ok {current : InvisibleFolderMetadata} {known revision : Str} {new : Bool}
    (h : planDownload current known = .ok (revision, new)) :
    ∃ entry, current.get REVISIONS_KEY = some entry ∧ entry.value = revision ∧
      (new = false → known ≠ [] ∧ known = revision) := by
  unfold planDownload at h
  split at h
  · cases h
  · rename_i entry hentry
    obtain ⟨rfl, rfl⟩ := Prod.mk.inj (Except.ok.inj h)
    refine ⟨entry, hentry, rfl, fun hnew => ?_⟩
    simpa using hnew

/-- Metadata that was returned is the parse of the answer's body. -/
theorem metadata_eq_ok {config : Config} {referenceId : Str} {keys : List Str} {http : HTTPResponse}
    {current : InvisibleFolderMetadata} (h : metadata config referenceId keys http = .ok current) :
    ∃ text, decodeUtf8 http.body = .ok text ∧ parseMetadata text = .ok current := by
  obtain ⟨_, _, h⟩ := bind_eq_ok.mp h
  obtain ⟨_, _, h⟩ := bind_eq_ok.mp h
  split at h
  · obtain ⟨message, _, h⟩ := bind_eq_ok.mp h
    split at h
    · cases h
    · cases h
  · exact bind_eq_ok.mp h

/-! ## The invariant -/

/-- A revision is one the file had, and the bytes kept with it are the content unless the file has
    changed since. -/
def Current (server : Server) (revision : Str) (bytes : Bytes) : Prop :=
  revision ∈ server.history ∧ (revision = server.revision → bytes = server.content)

/-- **The invariant**: what a call or a caller knows was true at some time since. -/
structure SyncInv (s : Sync) : Prop where
  /-- The current revision is part of the history. -/
  present : s.server.revision ∈ s.server.history
  /-- What is stored was the content at its revision. -/
  stored : ∀ p, s.stored = some p → Current s.server p.1 p.2
  /-- So was what a call started with. -/
  known : ∀ call p, s.calls call = some (.started (some p)) → Current s.server p.1 p.2
  /-- A planned download has a revision that existed. -/
  planned : ∀ call current revision, s.calls call = some (.planned current revision) →
    revision ∈ s.server.history
  /-- A call that found nothing new held the server's bytes. -/
  notNew : ∀ n ∈ s.notNew, ∃ p, n.known = some p ∧ p.2 = n.content

omit [CallStack] in
/-- It holds while nobody has asked. -/
theorem syncInv_new (content : Bytes) (revision : Str) : SyncInv (.new content revision) := by
  constructor
  · exact List.mem_singleton.mpr rfl
  · intro p h
    cases h
  · intro call p h
    cases h
  · intro call current revision h
    cases h
  · intro n h
    exact absurd h List.not_mem_nil

omit [CallStack] in
/-- A change of the file keeps what was known of its earlier states: its new revision is none of
    theirs. -/
theorem Current.change {server : Server} {revision : Str} {bytes : Bytes}
    (h : Current server revision bytes) (content : Bytes) {new : Str}
    (hnew : new ∉ server.history) : Current ⟨content, new, server.history ++ [new]⟩ revision bytes := by
  refine ⟨List.mem_append_left _ h.1, fun heq => ?_⟩
  have heq : revision = new := heq
  subst heq
  exact absurd h.1 hnew

omit [CallStack] in
/-- Where one call gets to: what it was started with is current, and what it plans was a revision. -/
theorem SyncInv.set {s : Sync} (h : SyncInv s) (call : Nat) (at' : Option Progress)
    (hknown : ∀ p, at' = some (.started (some p)) → Current s.server p.1 p.2)
    (hplanned : ∀ current revision, at' = some (.planned current revision) →
      revision ∈ s.server.history) :
    SyncInv { s with calls := Function.update s.calls call at' } := by
  refine ⟨h.present, h.stored, fun c p hc => ?_, fun c current revision hc => ?_, h.notNew⟩
  · by_cases hcall : c = call
    · subst hcall
      simp only [Function.update_self] at hc
      exact hknown p hc
    · simp only [Function.update_of_ne hcall] at hc
      exact h.known c p hc
  · by_cases hcall : c = call
    · subst hcall
      simp only [Function.update_self] at hc
      exact hplanned current revision hc
    · simp only [Function.update_of_ne hcall] at hc
      exact h.planned c current revision hc

omit [CallStack] in
/-- A call that leaves without a result changes nothing that matters. -/
theorem syncInv_leave {s : Sync} (h : SyncInv s) (call : Nat) :
    SyncInv { s with calls := Function.update s.calls call none } := by
  apply h.set call none
  · intro p hp
    cases hp
  · intro current revision hp
    cases hp

/-- The answer to the metadata request keeps it. -/
theorem syncInv_metadata {config : Config} {referenceId : Str} {s : Sync} {call : Nat}
    {known : Stored} {http : HTTPResponse} (h : SyncInv s)
    (hcall : s.calls call = some (.started known)) (hhonest : Honest s (.answerMetadata call http)) :
    SyncInv (onMetadata config referenceId s call known http) := by
  unfold onMetadata
  split
  · exact syncInv_leave h call
  · rename_i current hmetadata
    split
    · exact syncInv_leave h call
    · rename_i revision new hplan
      obtain ⟨text, htext, hparse⟩ := metadata_eq_ok hmetadata
      obtain ⟨entry, hentry, hvalue, hsame⟩ := planDownload_eq_ok hplan
      have hrevision : revision = s.server.revision :=
        hvalue ▸ hhonest text current entry htext hparse hentry
      cases new with
      | true =>
        rw [if_pos rfl]
        apply h.set call
        · intro p hp
          cases hp
        · intro current' revision' hp
          obtain ⟨rfl, rfl⟩ := Progress.planned.inj (Option.some.inj hp)
          rw [hrevision]
          exact h.present
      | false =>
        -- nothing new: what was stored with this very revision is the content
        obtain ⟨hne, hknown⟩ := hsame rfl
        have hleave := syncInv_leave h call
        refine ⟨hleave.present, hleave.stored, hleave.known, hleave.planned, fun n hn => ?_⟩
        rcases List.mem_append.mp hn with hn | hn
        · exact h.notNew n hn
        · rw [List.mem_singleton.mp hn]
          cases known with
          | none => exact absurd rfl hne
          | some p =>
            have hcurrent := h.known call p hcall
            exact ⟨p, rfl, hcurrent.2 (hknown.trans hrevision)⟩

theorem syncInv_download {config : Config} {referenceId : Str} {destination : Option Str} {s : Sync}
    {call : Nat} {current : InvisibleFolderMetadata} {revision : Str} {d : Delivery} (h : SyncInv s)
    (hcall : s.calls call = some (.planned current revision))
    (hhonest : Honest s (.answerDownload call d)) :
    SyncInv (onDownload config referenceId destination s call current revision d) := by
  unfold onDownload
  split
  · exact syncInv_leave h call
  · rename_i result hdeliver
    obtain ⟨hok, hrevision, hbytes⟩ := deliver_eq_ok hdeliver
    have hleave := syncInv_leave h call
    refine ⟨hleave.present, fun p hp => ?_, hleave.known, hleave.planned, hleave.notNew⟩
    have hp : result.delivered.map (fun bytes => (result.revision, bytes)) = some p := hp
    rw [hbytes, hrevision] at hp
    obtain rfl := Option.some.inj hp
    exact ⟨h.planned call current revision hcall, fun _ => hhonest hok⟩

/-- **One event** of an honest server keeps the invariant. -/
theorem syncInv_step (config : Config) (referenceId : Str) (destination : Option Str) (s : Sync)
    (event : Event) (h : SyncInv s) (hhonest : Honest s event) :
    SyncInv (syncStep config referenceId destination s event) := by
  -- a change of the file, a call, or one of the two answers to it
  cases event with
  | change content revision =>
    -- the server forgets no revision, and the new one has its own name
    refine ⟨List.mem_append_right _ (List.mem_singleton.mpr rfl), fun p hp => ?_, fun call p hp => ?_,
      fun call current rev hp => ?_, h.notNew⟩
    · exact (h.stored p hp).change content hhonest
    · exact (h.known call p hp).change content hhonest
    · exact List.mem_append_left _ (h.planned call current rev hp)
  | start call =>
    show SyncInv (match s.calls call with
      | none => { s with calls := Function.update s.calls call (some (.started s.stored)) }
      | some _ => s)
    split
    · -- a call starts with what is stored at that moment
      apply h.set call
      · intro p hp
        exact h.stored p (Progress.started.inj (Option.some.inj hp))
      · intro current revision hp
        cases hp
    · exact h
  | answerMetadata call http =>
    show SyncInv (match s.calls call with
      | some (.started known) => onMetadata config referenceId s call known http
      | _ => s)
    split
    · rename_i known hcall
      exact syncInv_metadata h hcall hhonest
    · exact h
  | answerDownload call d =>
    show SyncInv (match s.calls call with
      | some (.planned current revision) =>
        onDownload config referenceId destination s call current revision d
      | _ => s)
    split
    · rename_i current revision hcall
      exact syncInv_download h hcall hhonest
    · exact h

/-- **No missed update.**  In every run against a server whose revisions never repeat, a call that
    finds nothing new was started with something stored, and the bytes stored with that revision
    are the server's content at the moment its metadata request was answered. -/
theorem no_missed_update (config : Config) (referenceId : Str) (destination : Option Str)
    (content : Bytes) (revision : Str) (events : List Event)
    (h : Along (syncStep config referenceId destination) Honest (.new content revision) events) :
    ∀ n ∈ (run (syncStep config referenceId destination) (.new content revision) events).notNew,
      ∃ p, n.known = some p ∧ p.2 = n.content :=
  (Along.inv (fun s event hinv hok => syncInv_step config referenceId destination s event hinv hok)
    h (syncInv_new content revision)).notNew

end Sync

/-! ## A run -/

/-- `{"data": {"file": {"id": "a", …}, "metadata": {"__revisions": {"value": "7"}}}}`. -/
def sampleMetadataBody : Bytes :=
  [123, 34, 100, 97, 116, 97, 34, 58, 123, 34, 102, 105, 108, 101, 34, 58, 123, 34, 105, 100,
   34, 58, 34, 97, 34, 44, 34, 114, 101, 102, 101, 114, 101, 110, 99, 101, 95, 105, 100, 34,
   58, 34, 98, 34, 44, 34, 110, 97, 109, 101, 34, 58, 34, 99, 34, 44, 34, 109, 105, 109, 101,
   95, 116, 121, 112, 101, 34, 58, 34, 100, 34, 44, 34, 117, 112, 108, 111, 97, 100, 101, 100,
   95, 97, 116, 34, 58, 34, 101, 34, 44, 34, 115, 105, 122, 101, 34, 58, 49, 44, 34, 100, 111,
   119, 110, 108, 111, 97, 100, 115, 34, 58, 50, 44, 34, 112, 101, 114, 109, 105, 115, 115,
   105, 111, 110, 95, 116, 121, 112, 101, 95, 105, 100, 34, 58, 51, 125, 44, 34, 109, 101,
   116, 97, 100, 97, 116, 97, 34, 58, 123, 34, 95, 95, 114, 101, 118, 105, 115, 105, 111, 110,
   115, 34, 58, 123, 34, 118, 97, 108, 117, 101, 34, 58, 34, 55, 34, 125, 125, 125, 125]

/-- An answer with status 200. -/
def sampleAnswer (body : Bytes) : HTTPResponse := ⟨200, body, ∅, []⟩

/-- A first call that downloads, and a second one that finds nothing new. -/
def sampleEvents : List Event :=
  [.start 0, .answerMetadata 0 (sampleAnswer sampleMetadataBody),
    .answerDownload 0 ⟨str "token", sampleAnswer [1, 2, 3], .ok ()⟩,
    .start 1, .answerMetadata 1 (sampleAnswer sampleMetadataBody)]

/-- The sample document has the revision of the sample server. -/
theorem sampleMetadata_honest (text : Str) (current : InvisibleFolderMetadata)
    (entry : MetadataEntry) (htext : decodeUtf8 (sampleAnswer sampleMetadataBody).body = .ok text)
    (hparse : @parseMetadata sampleStack text = .ok current)
    (hentry : current.get REVISIONS_KEY = some entry) : entry.value = str "7" := by
  have hread : (((decodeUtf8 (sampleAnswer sampleMetadataBody).body >>=
      @parseMetadata sampleStack).toOption.bind fun m => m.get REVISIONS_KEY).map
        MetadataEntry.value) = some (str "7") := by decide +kernel
  rw [htext, ok_bind, hparse] at hread
  have hread : (current.get REVISIONS_KEY).map MetadataEntry.value = some (str "7") := hread
  rw [hentry] at hread
  exact Option.some.inj hread

/-- The second call reports that nothing is new, and the caller has the content already. -/
theorem no_missed_update_sample :
    (run (@syncStep sampleStack sampleConfig (str "file-1") none) (.new [1, 2, 3] (str "7"))
      sampleEvents).notNew.length = 1 ∧
    ∀ n ∈ (run (@syncStep sampleStack sampleConfig (str "file-1") none) (.new [1, 2, 3] (str "7"))
      sampleEvents).notNew, ∃ p, n.known = some p ∧ p.2 = n.content := by
  constructor
  · decide +kernel
  · refine @no_missed_update sampleStack sampleConfig (str "file-1") none [1, 2, 3] (str "7")
      sampleEvents ⟨trivial, ?_, ?_, trivial, ?_, trivial⟩
    · exact sampleMetadata_honest
    · intro _
      decide +kernel
    · intro text current entry htext hparse hentry
      rw [sampleMetadata_honest text current entry htext hparse hentry]
      decide +kernel

end Bedrock.Protocol
