import TtsServer.JwtVerifier
import TtsServer.RequestParser
import TtsServer.StreamAnswers

/-!
# Only authorised calls are served

`check_auth` is the first thing that the handlers of `SynthesizeStream` and `SynthesizeClient` do.
It takes the bearer token of the call and has it verified for the issuer `tts-service`. This file
puts the check before the calls of `TtsServiceImpl` and follows the identifiers that the server
works on: whatever arrives, and however the handlers, the upstream and the heartbeat thread take
turns, each of them belongs to one call, whose token was signed with the key and passed at its
time. The reading of base64 and the check of the signature are those of OpenSSL and are
parameters here.

`MediatorTtsServiceImpl::Synth` is served on the same port without any check. It calls the local
engine itself and shares no channel, store or identifier with these calls; nothing is said of it.
-/

namespace TtsServer

open Lib Heartbeat History JwtVerifier

/-- The metadata of a call, in the order in which the multimap holds it. -/
abbrev Metadata : Type := List (Bytes × Bytes)

/-- What stands before the token. -/
def bearer : Bytes := ascii "Bearer "

/-- The issuer that `check_auth` asks for. -/
def requiredIssuer : Bytes := ascii "tts-service"

/-- `check_auth`; without a verifier every call passes. -/
def checkAuth (bioRead : Bytes → Option Bytes) (jwt : Option (Bytes → Bytes → Bool)) (now : Int)
    (metadata : Metadata) : Bool :=
  match jwt with
  | none => true
  | some rsa =>
    match metadata.find? fun e => e.1 == ascii "authorization" with
    | none => false
    | some (_, v) =>
      if bearer.isPrefixOf v then
        verify bioRead rsa now (v.drop bearer.length) requiredIssuer == .ok
      else false

/-- The token is signed with the key, its header names the algorithm, its payload names the
issuer, and no expiry that can be read from it has come. -/
def Authorised (bioRead : Bytes → Option Bytes) (rsa : Bytes → Bytes → Bool) (now : Int)
    (token : Bytes) : Prop :=
  ∃ h p s header payload signature, HasParts token h p s ∧
    base64urlDecode bioRead h = some header ∧ base64urlDecode bioRead p = some payload ∧
    base64urlDecode bioRead s = some signature ∧ rsa (h ++ [dot] ++ p) signature = true ∧
    algText <:+: header ∧ (∀ n, ReadsExpiry payload n → now < n) ∧
    Reads payload (ascii "iss") requiredIssuer

section Check

variable {bioRead : Bytes → Option Bytes} {rsa : Bytes → Bytes → Bool} {now : Int}
  {token : Bytes} {metadata : Metadata}

/-- `check_auth` asks for an issuer. -/
theorem requiredIssuer_ne_nil : requiredIssuer ≠ [] := by decide

/-- A token is verified for the issuer exactly when it is authorised. -/
theorem verify_eq_ok_iff :
    verify bioRead rsa now token requiredIssuer = .ok ↔ Authorised bioRead rsa now token := by
  constructor
  · intro hok
    have hparts : ∃ h p s, splitDot token = [h, p, s] := by
      unfold verify at hok
      split at hok
      · cases hok
      · split at hok
        · next h p s hsplit => exact ⟨h, p, s, hsplit⟩
        · cases hok
    obtain ⟨h, p, s, hsplit⟩ := hparts
    have hparts := splitDot_eq_three_iff.mp hsplit
    have hdecoded : ∃ header payload signature, base64urlDecode bioRead h = some header ∧
        base64urlDecode bioRead p = some payload ∧
        base64urlDecode bioRead s = some signature := by
      simp only [verify, hsplit] at hok
      split at hok
      · cases hok
      · split at hok
        · next header payload signature hheader hpayload hsignature =>
          exact ⟨header, payload, signature, hheader, hpayload, hsignature⟩
        · cases hok
    obtain ⟨header, payload, signature, hheader, hpayload, hsignature⟩ := hdecoded
    rw [verify_eq rsa hparts hheader hpayload hsignature] at hok
    split at hok
    · cases hok
    · next hsigned =>
      split at hok
      · cases hok
      · next hnamed =>
        obtain ⟨hexpiry, hissuer⟩ := (checkClaims_eq_ok_iff requiredIssuer_ne_nil).mp hok
        exact ⟨h, p, s, header, payload, signature, hparts, hheader, hpayload, hsignature,
          by simpa using hsigned, not_not.mp (isNone_find_algText.not.mp hnamed), hexpiry,
          hissuer⟩
  · rintro ⟨h, p, s, header, payload, signature, hparts, hheader, hpayload, hsignature, hsigned,
      hnamed, hexpiry, hissuer⟩
    have haccepted : (!rsa (h ++ [dot] ++ p) signature) = false := by rw [hsigned, Bool.not_true]
    rw [verify_eq rsa hparts hheader hpayload hsignature, haccepted, if_neg Bool.false_ne_true,
      if_neg (isNone_find_algText.not.mpr (not_not.mpr hnamed))]
    exact (checkClaims_eq_ok_iff requiredIssuer_ne_nil).mpr ⟨hexpiry, hissuer⟩

/-- A call passes when its first authorization entry is a bearer token that is authorised. -/
theorem checkAuth_iff :
    checkAuth bioRead (some rsa) now metadata = true ↔
      ∃ key token, metadata.find? (fun e => e.1 == ascii "authorization") =
        some (key, bearer ++ token) ∧ Authorised bioRead rsa now token := by
  simp only [checkAuth]
  split
  · next hnone => simp [hnone]
  · next key v hfound =>
    rw [hfound]
    constructor
    · intro hpasses
      split at hpasses
      · next hbearer =>
        obtain ⟨token, rfl⟩ := List.isPrefixOf_iff_prefix.mp hbearer
        rw [List.drop_left, beq_iff_eq, verify_eq_ok_iff] at hpasses
        exact ⟨key, token, rfl, hpasses⟩
      · cases hpasses
    · rintro ⟨key', token, heq, hauthorised⟩
      obtain ⟨-, rfl⟩ := Prod.mk.inj (Option.some.inj heq)
      rw [if_pos (List.isPrefixOf_iff_prefix.mpr (List.prefix_append _ _)), List.drop_left,
        beq_iff_eq]
      exact verify_eq_ok_iff.mpr hauthorised

/-- A bearer token of the issuer passes, and the same token without the word does not. -/
example :
    let token := ascii "eyJhbGciOiJSUzI1NiJ9.eyJpc3MiOiJ0dHMtc2VydmljZSJ9.c2ln"
    checkAuth base64Decode (some fun _ _ => true) 0
        [(ascii "authorization", bearer ++ token)] = true ∧
      checkAuth base64Decode (some fun _ _ => true) 0 [(ascii "authorization", token)] = false := by
  decide +kernel

end Check

/-! ### The identifiers that the server works on -/

namespace Server

variable {env : Env} {σ : Server} {ev : ServerEvent} {rid : String} {known : String → Prop}

/-- The identifier that a move hands out. -/
def opened (σ : Server) : ServerEvent → Option String
  | .openStream _ => some (generateRequestId "strm" σ.ctr)
  | .openClient => some (generateRequestId "cli" σ.ctr)
  | _ => none

/-- A move that hands out no identifier draws none. -/
theorem opens_of_opened_eq_none (h : σ.opened ev = none) : ev.opens = false := by
  cases ev with
  | openStream parsed => cases h
  | openClient => cases h
  | _ => rfl

/-- A move that hands out an identifier draws it. -/
theorem opens_of_opened_eq_some (h : σ.opened ev = some rid) : ev.opens = true := by
  cases ev with
  | openStream parsed => rfl
  | openClient => rfl
  | _ => cases h

/-- What is handed out is made from the counter. -/
theorem opened_eq_some (h : σ.opened ev = some rid) :
    rid = generateRequestId "strm" σ.ctr ∨ rid = generateRequestId "cli" σ.ctr := by
  cases ev with
  | openStream parsed => exact Or.inl (Option.some.inj h).symm
  | openClient => exact Or.inr (Option.some.inj h).symm
  | _ => cases h

/-- All calls of the server, and all that it works on, have known identifiers. -/
structure Confined (known : String → Prop) (σ : Server) : Prop where
  between : BetweenTicks σ.hb
  streams : ∀ {rid call}, σ.streams.lookup rid = some call → known rid
  clients : ∀ {rid call}, σ.clients.lookup rid = some call → known rid
  mentions : ∀ {rid}, σ.Mentions rid → known rid

/-- More identifiers may be known. -/
theorem Confined.mono {known' : String → Prop} (h : Confined known σ)
    (hmono : ∀ rid, known rid → known' rid) : Confined known' σ :=
  ⟨h.between, fun hcall => hmono _ (h.streams hcall), fun hcall => hmono _ (h.clients hcall),
    fun hmentions => hmono _ (h.mentions hmentions)⟩

/-- A handler that goes on. -/
theorem Confined.proceed (h : Confined known σ) {phase : StreamPhase}
    {f : StreamCall → StreamCall} : Confined known (σ.proceed rid phase f) := by
  refine ⟨h.between, fun {id call} hcall => ?_, h.clients, h.mentions⟩
  rw [lookup_proceed] at hcall
  obtain ⟨call', hcall', -⟩ := Option.map_eq_some_iff.mp hcall
  exact h.streams hcall'

/-- Messages with known identifiers may be sent to the heartbeat. -/
theorem Confined.enqueue (h : Confined known σ) {ms : List Message}
    (hms : ∀ m ∈ ms, m.Within known) :
    Confined known { σ with requestChannel := σ.requestChannel ++ ms } := by
  refine ⟨h.between, h.streams, h.clients, ?_⟩
  rintro rid (⟨m, hm, hid⟩ | hmentions)
  · rcases List.mem_append.mp hm with hm | hm
    · exact h.mentions (Mentions.message hm hid)
    · exact hms m hm rid hid
  · exact h.mentions (Or.inr hmentions)

/-- Handing over a response. -/
theorem Confined.deliver (h : Confined known σ) {w : WriteToClient} {addressee : Addressee}
    (hhand : σ.inHand = some (w, addressee)) : Confined known (σ.deliver w addressee) := by
  have hmentions {rid : String} (hmentions : (σ.deliver w addressee).Mentions rid) : known rid :=
    h.mentions (mentions_deliver hhand hmentions)
  cases addressee with
  | localQueue =>
    refine ⟨h.between, fun hcall => ?_, h.clients, hmentions⟩
    obtain ⟨call, hcall, -⟩ := lookup_deliver_localQueue hcall
    exact h.streams hcall
  | writer =>
    refine ⟨h.between, h.streams, fun {rid call} hcall => ?_, hmentions⟩
    simp only [Server.deliver, Table.lookup_modify] at hcall
    split at hcall
    · obtain ⟨call', hcall', -⟩ := Option.map_eq_some_iff.mp hcall
      exact h.clients hcall'
    · exact h.clients hcall
  | nobody => exact ⟨h.between, h.streams, h.clients, hmentions⟩

/-- Looking up the addressee of the next response. -/
theorem Confined.look (h : Confined known σ) {w : WriteToClient} {ws : List WriteToClient}
    {addressee : Addressee} (hwrites : σ.clientWrites = w :: ws) :
    Confined known { σ with clientWrites := ws, inHand := some (w, addressee) } := by
  have hknown {w' : WriteToClient} (hw' : w' ∈ w :: ws) : known w'.requestId :=
    h.mentions (Mentions.write (hwrites ▸ hw'))
  refine ⟨h.between, h.streams, h.clients, ?_⟩
  rintro rid (⟨m, hm, hid⟩ | ⟨p, hp⟩ | ⟨w', hw', rfl⟩ | ⟨w', a, hw', rfl⟩ | ⟨job, hjob, rfl⟩ |
    ⟨w', hw', rfl⟩)
  · exact h.mentions (Mentions.message hm hid)
  · exact h.mentions (Mentions.pending hp)
  · exact hknown (List.mem_cons_of_mem _ hw')
  · obtain ⟨rfl, -⟩ := Prod.mk.inj (Option.some.inj hw')
    exact hknown List.mem_cons_self
  · exact h.mentions (Mentions.job hjob)
  · exact h.mentions (Mentions.dispatched hw')

/-- Running the next job. -/
theorem Confined.job (h : Confined known σ) {job : LocalSynthJob} {jobs : List LocalSynthJob}
    (hjobs : σ.localJobs = job :: jobs) :
    Confined known { σ with
      localJobs := jobs
      requestChannel := σ.requestChannel ++
        (env.localEngine.map fun engine => runJob engine job).toList } := by
  have hknown {job' : LocalSynthJob} (hjob' : job' ∈ job :: jobs) : known job'.requestId :=
    h.mentions (Mentions.job (hjobs ▸ hjob'))
  have hrest : Confined known { σ with localJobs := jobs } := by
    refine ⟨h.between, h.streams, h.clients, ?_⟩
    rintro rid (⟨m, hm, hid⟩ | ⟨p, hp⟩ | ⟨w, hw, rfl⟩ | ⟨w, a, hw, rfl⟩ | ⟨job', hjob', rfl⟩ |
      ⟨w, hw, rfl⟩)
    · exact h.mentions (Mentions.message hm hid)
    · exact h.mentions (Mentions.pending hp)
    · exact h.mentions (Mentions.write hw)
    · exact h.mentions (Mentions.hand hw)
    · exact hknown (List.mem_cons_of_mem _ hjob')
    · exact h.mentions (Mentions.dispatched hw)
  refine hrest.enqueue fun m hm id hid => ?_
  obtain ⟨engine, -, rfl⟩ := Option.map_eq_some_iff.mp (Option.mem_toList.mp hm)
  have hjob : job.requestId = id := by
    unfold runJob at hid
    simp only at hid
    split at hid <;> simpa [Message.requestId?, Message.answerId?] using hid
  exact hjob ▸ hknown List.mem_cons_self

/-- A tick works on what is pending and on what it drains. -/
theorem Confined.tick (h : Confined known σ) (horderly : Orderly σ) (hhand : σ.inHand = none)
    (startedAt now endedAt : TimePoint) :
    Confined known (σ.tick env startedAt now endedAt) := by
  have hbatch : ∀ m ∈ TickInput.batch
      { requests := σ.requestChannel, events := σ.wsEventChannel, startedAt, now, endedAt },
      m.Within known := by
    intro m hm id hid
    rcases List.mem_append.mp hm with hm | hm
    · exact h.mentions (Mentions.message hm hid)
    · obtain ⟨rsp, rfl⟩ := horderly.events m hm
      rcases hid with hid | hid <;> cases hid
  unfold Server.tick
  generalize
    ({ requests := σ.requestChannel, events := σ.wsEventChannel, startedAt, now, endedAt } :
      TickInput) = inp at hbatch ⊢
  obtain ⟨hpending, hwrites, hjobs⟩ := @Heartbeat.Within.tick env σ.hb known h.between
    (fun hp => h.mentions (Mentions.pending hp)) inp hbatch
  have hbetween := @BetweenTicks.tick env σ.hb h.between inp
  generalize Heartbeat.tick env inp σ.hb = r at hpending hwrites hjobs hbetween ⊢
  refine ⟨hbetween, h.streams, h.clients, ?_⟩
  rintro rid (⟨m, hm, -⟩ | ⟨p, hp⟩ | ⟨w, hw, rfl⟩ | ⟨w, a, hw, -⟩ | ⟨job, hjob, rfl⟩ | ⟨w, hw, rfl⟩)
  · cases hm
  · exact hpending hp
  · exact hwrites w hw
  · cases hhand.symm.trans hw
  · exact hjobs job hjob
  · exact h.mentions (Mentions.dispatched hw)

/-- The next move of the heartbeat thread. -/
theorem Confined.advance (h : Confined known σ) (horderly : Orderly σ)
    (startedAt now endedAt : TimePoint) :
    Confined known (σ.advance env startedAt now endedAt) := by
  unfold Server.advance
  split
  · next hhand => exact h.deliver hhand
  · next hhand =>
    split
    · next hwrites => exact h.look hwrites
    · split
      · next hjobs => exact h.job hjobs
      · exact h.tick horderly hhand startedAt now endedAt

/-- A move works on what is known already and on the identifier that it hands out. -/
theorem Confined.step (h : Confined known σ) (horderly : Orderly σ) (ev : ServerEvent)
    (hopened : ∀ rid ∈ σ.opened ev, known rid) : Confined known (σ.step env ev) := by
  cases ev with
  | openStream parsed =>
    cases parsed with
    | none => exact ⟨h.between, h.streams, h.clients, h.mentions⟩
    | some req =>
      refine ⟨h.between, fun {rid call} hcall => ?_, h.clients, h.mentions⟩
      by_cases hrid : rid = generateRequestId "strm" σ.ctr
      · exact hopened rid (by rw [hrid]; rfl)
      · exact h.streams ((AList.lookup_insert_ne hrid).symm.trans hcall)
  | send rid =>
    refine h.proceed.enqueue fun m hm id hid => ?_
    obtain ⟨call, hcall, rfl⟩ := List.mem_map.mp hm
    obtain ⟨hcall, -⟩ := Option.filter_eq_some_iff.mp (Option.mem_toList.mp hcall)
    have hname := (horderly.named hcall).1
    rcases hid with hid | hid
    · rw [← Option.some.inj hid, hname]
      exact h.streams hcall
    · cases hid
  | registerQueue rid => exact h.proceed
  | registerWriter rid => exact h.proceed
  | drain rid accepted => exact h.proceed
  | abandon rid => exact h.proceed
  | openClient =>
    refine ⟨h.between, h.streams, fun {rid call} hcall => ?_, h.mentions⟩
    by_cases hrid : rid = generateRequestId "cli" σ.ctr
    · exact hopened rid (by rw [hrid]; rfl)
    · exact h.clients ((AList.lookup_insert_ne hrid).symm.trans hcall)
  | clientChunk rid req =>
    refine h.enqueue fun m hm id hid => ?_
    obtain ⟨call, hcall, rfl⟩ := List.mem_map.mp hm
    rcases hid with hid | hid
    · rw [← Option.some.inj hid]
      exact h.clients (Option.mem_toList.mp hcall)
    · cases hid
  | upstreamEvent rsp => exact ⟨h.between, h.streams, h.clients, h.mentions⟩
  | advance startedAt now endedAt => exact h.advance horderly startedAt now endedAt

end Server

/-! ### The check before the calls -/

/-- The server behind the check, with the calls that have been let in, for the record: their
identifiers, the time of the check and their metadata. -/
structure Entry where
  server : Server
  letIn : List (String × Int × Metadata) := []

/-- The calls that arrive and the moves behind the check. -/
inductive EntryEvent where
  | stream (now : Int) (metadata : Metadata) (request : Proto.SynthesizeRequest)
  | client (now : Int) (metadata : Metadata)
  /-- The handlers that have been let in, the upstream and the heartbeat thread. -/
  | inside (ev : ServerEvent)

/-- The time and the metadata of a call that arrives. -/
def EntryEvent.call : EntryEvent → Option (Int × Metadata)
  | .stream now metadata _ | .client now metadata => some (now, metadata)
  | .inside _ => none

namespace Entry

/-- A call that has passed the check is opened. -/
def letCallIn (env : Env) (x : Entry) (now : Int) (metadata : Metadata) (ev : ServerEvent) :
    Entry where
  server := x.server.step env ev
  letIn := x.letIn ++ (x.server.opened ev).toList.map fun rid => (rid, now, metadata)

/-- One move. A call that does not pass is answered with `UNAUTHENTICATED` and leaves no trace. -/
def step (bioRead : Bytes → Option Bytes) (jwt : Option (Bytes → Bytes → Bool)) (env : Env)
    (x : Entry) : EntryEvent → Entry
  | .stream now metadata request =>
    if checkAuth bioRead jwt now metadata then
      let rid := generateRequestId "strm" x.server.ctr
      x.letCallIn env now metadata (.openStream (parseUnary request rid).toOption)
    else x
  | .client now metadata =>
    if checkAuth bioRead jwt now metadata then x.letCallIn env now metadata .openClient else x
  | .inside ev =>
    match x.server.opened ev with
    | some _ => x
    | none => { x with server := x.server.step env ev }

/-- The moves in turn, on a new server. -/
def run (bioRead : Bytes → Option Bytes) (jwt : Option (Bytes → Bytes → Bool)) (env : Env)
    (hb : Heartbeat) (events : List EntryEvent) : Entry :=
  events.foldl (step bioRead jwt env) { server := { hb := hb } }

/-- The calls among some arrivals that pass the check, with the times at which they arrive. -/
def passingCalls (bioRead : Bytes → Option Bytes) (jwt : Option (Bytes → Bytes → Bool))
    (events : List EntryEvent) : List (Int × Metadata) :=
  events.filterMap fun event => event.call.filter fun c => checkAuth bioRead jwt c.1 c.2

variable {bioRead : Bytes → Option Bytes} {jwt : Option (Bytes → Bytes → Bool)} {env : Env}
  {x : Entry}

/-- The server works on calls that have been let in, and these are different and have passed. -/
structure Guarded (bioRead : Bytes → Option Bytes) (jwt : Option (Bytes → Bytes → Bool))
    (x : Entry) : Prop where
  orderly : Server.Orderly x.server
  confined : x.server.Confined fun rid => ∃ e ∈ x.letIn, e.1 = rid
  drawn : ∀ e ∈ x.letIn, ∃ n < x.server.ctr,
    e.1 = generateRequestId "strm" n ∨ e.1 = generateRequestId "cli" n
  distinct : (x.letIn.map Prod.fst).Nodup
  passed : ∀ e ∈ x.letIn, checkAuth bioRead jwt e.2.1 e.2.2 = true

/-- An identifier from the counter is new. -/
theorem Guarded.fresh (h : Guarded bioRead jwt x) {ev : ServerEvent} {rid : String}
    (hopened : x.server.opened ev = some rid) : rid ∉ x.letIn.map Prod.fst := by
  intro hmem
  obtain ⟨e, he, rfl⟩ := List.mem_map.mp hmem
  obtain ⟨n, hn, hname⟩ := h.drawn e he
  rcases hname with hname | hname <;> rcases Server.opened_eq_some hopened with hnew | hnew
  · have heq := generateRequestId_injective (hname.symm.trans hnew)
    omega
  · exact generateRequestId_strm_ne_cli _ _ (hname.symm.trans hnew)
  · exact generateRequestId_strm_ne_cli _ _ (hnew.symm.trans hname)
  · have heq := generateRequestId_injective (hname.symm.trans hnew)
    omega

/-- A call that has passed is let in. -/
theorem Guarded.letCallIn (h : Guarded bioRead jwt x) {now : Int} {metadata : Metadata}
    (hpasses : checkAuth bioRead jwt now metadata = true) {ev : ServerEvent} {rid : String}
    (hopened : x.server.opened ev = some rid) :
    Guarded bioRead jwt (x.letCallIn env now metadata ev) := by
  have hletIn : (x.letCallIn env now metadata ev).letIn = x.letIn ++ [(rid, now, metadata)] := by
    simp [Entry.letCallIn, hopened]
  have hctr : (x.letCallIn env now metadata ev).server.ctr = x.server.ctr + 1 := by
    simp [Entry.letCallIn, Server.ctr_step, Server.opens_of_opened_eq_some hopened]
  have hknown : x.server.Confined fun rid =>
      ∃ e ∈ (x.letCallIn env now metadata ev).letIn, e.1 = rid := by
    refine h.confined.mono fun rid ⟨e, he, hrid⟩ => ⟨e, ?_, hrid⟩
    rw [hletIn]
    exact List.mem_append_left _ he
  refine ⟨h.orderly.step ev, hknown.step h.orderly ev fun rid' hrid' => ?_, fun e he => ?_, ?_,
    fun e he => ?_⟩
  · obtain rfl := Option.some.inj (hopened.symm.trans hrid')
    exact ⟨(rid, now, metadata), by simp [hletIn], rfl⟩
  · rw [hctr]
    rw [hletIn] at he
    rcases List.mem_append.mp he with he | he
    · obtain ⟨n, hn, hname⟩ := h.drawn e he
      exact ⟨n, by omega, hname⟩
    · rw [List.mem_singleton.mp he]
      exact ⟨x.server.ctr, by omega, Server.opened_eq_some hopened⟩
  · rw [hletIn, List.map_append]
    refine h.distinct.append (List.nodup_singleton _) fun rid' hold hnew => ?_
    obtain rfl := List.mem_singleton.mp hnew
    exact h.fresh hopened hold
  · rw [hletIn] at he
    rcases List.mem_append.mp he with he | he
    · exact h.passed e he
    · rw [List.mem_singleton.mp he]
      exact hpasses

/-- Every move keeps the guard. -/
theorem Guarded.step (h : Guarded bioRead jwt x) (event : EntryEvent) :
    Guarded bioRead jwt (x.step bioRead jwt env event) := by
  cases event with
  | stream now metadata request =>
    simp only [Entry.step]
    split
    · next hpasses => exact h.letCallIn hpasses rfl
    · exact h
  | client now metadata =>
    simp only [Entry.step]
    split
    · next hpasses => exact h.letCallIn hpasses rfl
    · exact h
  | inside ev =>
    simp only [Entry.step]
    split
    · exact h
    · next hopened =>
      have hctr : (x.server.step env ev).ctr = x.server.ctr := by
        simp [Server.ctr_step, Server.opens_of_opened_eq_none hopened]
      refine ⟨h.orderly.step ev, h.confined.step h.orderly ev (by simp [hopened]), fun e he => ?_,
        h.distinct, h.passed⟩
      rw [hctr]
      exact h.drawn e he

/-- The guard stands in every run. -/
theorem run_guarded (maxSize : ℕ) (idleTimeout maxLifetime : Duration)
    (events : List EntryEvent) :
    Guarded bioRead jwt (run bioRead jwt env (start maxSize idleTimeout maxLifetime) events) := by
  refine events.foldlRecOn _ (motive := Guarded bioRead jwt) ?_ fun x h event _ => h.step event
  have hnothing (rid : String) :
      ¬ Server.Mentions { hb := start maxSize idleTimeout maxLifetime } rid := by
    rintro (⟨m, hm, -⟩ | ⟨p, hp⟩ | ⟨w, hw, -⟩ | ⟨w, a, hw, -⟩ | ⟨job, hjob, -⟩ | ⟨w, hw, -⟩)
    · cases hm
    · cases hp
    · cases hw
    · cases hw
    · cases hjob
    · cases hw
  refine ⟨Server.start_orderly _ _ _, ⟨start_betweenTicks _ _ _, fun hcall => ?_, fun hcall => ?_,
    fun hmentions => absurd hmentions (hnothing _)⟩, by simp, List.nodup_nil, by simp⟩
  · cases hcall
  · cases hcall

/-- One move lets a call in when it passes the check, and lets nothing else in. -/
theorem letIn_step (x : Entry) (event : EntryEvent) :
    (x.step bioRead jwt env event).letIn.map Prod.snd =
      x.letIn.map Prod.snd ++
        (event.call.filter fun c => checkAuth bioRead jwt c.1 c.2).toList := by
  cases event with
  | stream now metadata request =>
    by_cases hpasses : checkAuth bioRead jwt now metadata = true <;>
      simp [step, EntryEvent.call, Option.filter, hpasses, letCallIn, Server.opened]
  | client now metadata =>
    by_cases hpasses : checkAuth bioRead jwt now metadata = true <;>
      simp [step, EntryEvent.call, Option.filter, hpasses, letCallIn, Server.opened]
  | inside ev =>
    simp only [step]
    split <;> simp [EntryEvent.call]

/-- The calls that have been let in are those that passed the check when they arrived. -/
theorem letIn_run (hb : Heartbeat) (events : List EntryEvent) :
    (run bioRead jwt env hb events).letIn.map Prod.snd = passingCalls bioRead jwt events := by
  rw [passingCalls, List.filterMap_eq_flatMap_toList]
  exact (@foldl_log _ _ _ _ events _ (fun x : Entry => x.letIn.map Prod.snd) _ letIn_step).trans
    (List.nil_append _)

/-- **Only authorised calls are served** by `TtsServiceImpl`. With a key in use, whatever calls
arrive and in whatever order the handlers, the upstream and the heartbeat thread move, the calls
that are let in are those that pass the check on their arrival, and every identifier on a
channel, in the pending store, in a job or in a response was given to exactly one of them. The
first authorization entry of that call was a bearer token with three parts, whose signature the
key accepts for the first two, whose header names the algorithm, whose payload names the issuer,
and from which no expiry could be read that had come when the call was made. -/
theorem only_authorised_calls_served (bioRead : Bytes → Option Bytes)
    (rsa : Bytes → Bytes → Bool) (env : Env) (maxSize : ℕ) (idleTimeout maxLifetime : Duration)
    (events : List EntryEvent) :
    (run bioRead (some rsa) env (start maxSize idleTimeout maxLifetime) events).letIn.map
        Prod.snd = passingCalls bioRead (some rsa) events ∧
      ((run bioRead (some rsa) env (start maxSize idleTimeout maxLifetime) events).letIn.map
        Prod.fst).Nodup ∧
      ∀ rid, (run bioRead (some rsa) env
          (start maxSize idleTimeout maxLifetime) events).server.Mentions rid →
        ∃ now metadata key token,
          (rid, now, metadata) ∈
            (run bioRead (some rsa) env (start maxSize idleTimeout maxLifetime) events).letIn ∧
          metadata.find? (fun e => e.1 == ascii "authorization") = some (key, bearer ++ token) ∧
          Authorised bioRead rsa now token := by
  have h := @run_guarded bioRead (some rsa) env maxSize idleTimeout maxLifetime events
  refine ⟨letIn_run _ events, h.distinct, fun rid hmentions => ?_⟩
  obtain ⟨⟨rid, now, metadata⟩, he, rfl⟩ := h.confined.mentions hmentions
  obtain ⟨key, token, hfound, hauthorised⟩ := checkAuth_iff.mp (h.passed _ he)
  exact ⟨now, metadata, key, token, he, hfound, hauthorised⟩

/-- A bearer token of the issuer, for a signature check that accepts everything. -/
def issuerToken : Bytes := ascii "eyJhbGciOiJSUzI1NiJ9.eyJpc3MiOiJ0dHMtc2VydmljZSJ9.c2ln"

/-- A call without a token is turned away, and one with a token sends its request. -/
def twoCalls : List EntryEvent :=
  [.stream 0 [] { text := "hi" },
    .stream 5 [(ascii "authorization", bearer ++ issuerToken)] { text := "hi" },
    .inside (.send "strm-1")]

/-- Only the call with the token is let in, and its request is on the way to the heartbeat. -/
theorem only_authorised_calls_served_twoCalls :
    (run base64Decode (some fun _ _ => true) sampleLocalEnv
        (start 16 (seconds 60) (seconds 3600)) twoCalls).letIn =
        [("strm-1", 5, [(ascii "authorization", bearer ++ issuerToken)])] ∧
      (run base64Decode (some fun _ _ => true) sampleLocalEnv
        (start 16 (seconds 60) (seconds 3600)) twoCalls).server.Mentions "strm-1" ∧
      ∃ now metadata key token,
        ("strm-1", now, metadata) ∈ (run base64Decode (some fun _ _ => true) sampleLocalEnv
          (start 16 (seconds 60) (seconds 3600)) twoCalls).letIn ∧
        metadata.find? (fun e => e.1 == ascii "authorization") = some (key, bearer ++ token) ∧
        Authorised base64Decode (fun _ _ => true) now token := by
  have hmentions : (run base64Decode (some fun _ _ => true) sampleLocalEnv
      (start 16 (seconds 60) (seconds 3600)) twoCalls).server.Mentions "strm-1" := by
    have hsent : (run base64Decode (some fun _ _ => true) sampleLocalEnv
        (start 16 (seconds 60) (seconds 3600)) twoCalls).server.requestChannel.map
          Message.requestId? = [some "strm-1"] := by
      decide +kernel
    obtain ⟨m, hm, hid⟩ := List.mem_map.mp (hsent ▸ List.mem_singleton_self (some "strm-1"))
    exact Or.inl ⟨m, hm, Or.inl hid⟩
  exact ⟨by decide +kernel, hmentions, (only_authorised_calls_served base64Decode
    (fun _ _ => true) sampleLocalEnv 16 (seconds 60) (seconds 3600) twoCalls).2.2 _ hmentions⟩

end Entry

end TtsServer
