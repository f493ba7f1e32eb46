import TtsServer.ClientStream

/-!
# Answers of stream calls

Many calls share one heartbeat, one local engine and one counter of identifiers. A stream
call whose request goes to the local engine gets the answer to its own request or nothing,
and never more than one answer, whatever the other calls and the upstream sessions do in
the meantime.
-/

namespace TtsServer

open Lib Heartbeat History

namespace Server

variable {env : Env} {engine : LocalTtsEngine} {rid : String} {σ : Server} {call : StreamCall}
  {w : WriteToClient} {addressee : Addressee}

/-! ### What every move keeps -/

/-- Calls are named after the counter, upstream events are responses, and the collector of the
heartbeat is empty between ticks. -/
structure Orderly (σ : Server) : Prop where
  collector : σ.hb.changeset = {}
  named : ∀ {id call}, σ.streams.lookup id = some call →
    call.request.requestId = id ∧ ∃ n < σ.ctr, id = generateRequestId "strm" n
  clients : ∀ {id call}, σ.clients.lookup id = some call → ∃ n, id = generateRequestId "cli" n
  events : ∀ m ∈ σ.wsEventChannel, ∃ rsp, m = .response rsp

/-- The record of a call after its handler or another one has gone on. -/
theorem lookup_proceed {phase : StreamPhase} {f : StreamCall → StreamCall} {id : String} :
    (σ.proceed id phase f).streams.lookup rid =
      (σ.streams.lookup rid).map fun call =>
        if rid = id ∧ call.phase = phase then f call else call := by
  unfold Server.proceed
  rw [Table.lookup_modify]
  split
  · next hid => simp [hid]
  · next hid => simp [hid]

/-- The record of a stream call after a response has been handed over. -/
theorem streams_deliver :
    (σ.deliver w addressee).streams.lookup rid =
      (σ.streams.lookup rid).map fun call =>
        if addressee = .localQueue ∧ rid = w.requestId then
          { call with localQueue := call.localQueue ++ [w] }
        else call := by
  cases addressee with
  | localQueue =>
    unfold Server.deliver
    simp only [Table.lookup_modify]
    split
    · next hid => simp [hid]
    · next hid => simp [hid]
  | writer => simp [Server.deliver]
  | nobody => simp [Server.deliver]

/-- A tick touches no call. -/
theorem streams_tick {startedAt now endedAt : TimePoint} :
    (σ.tick env startedAt now endedAt).streams = σ.streams := by
  unfold Server.tick
  generalize Heartbeat.tick env _ σ.hb = r
  rfl

/-- The request of a call stays as it is, as long as its identifier is not drawn again. -/
theorem Orderly.lookup_step (h : Orderly σ) (hcall : σ.streams.lookup rid = some call)
    (ev : ServerEvent) : ∃ call', (σ.step env ev).streams.lookup rid = some call' ∧
      call'.request = call.request := by
  have hproceed {id : String} {phase : StreamPhase} {f : StreamCall → StreamCall}
      (hf : ∀ call, (f call).request = call.request) :
      ∃ call', (σ.proceed id phase f).streams.lookup rid = some call' ∧
        call'.request = call.request := by
    refine ⟨_, by rw [lookup_proceed, hcall, Option.map_some], ?_⟩
    split
    · exact hf call
    · rfl
  cases ev with
  | openStream parsed =>
    cases parsed with
    | none => exact ⟨call, hcall, rfl⟩
    | some req =>
      obtain ⟨-, n, hn, hrid⟩ := h.named hcall
      have hne : rid ≠ generateRequestId "strm" σ.ctr := by
        intro heq
        have hctr := generateRequestId_injective (hrid.symm.trans heq)
        omega
      exact ⟨call, (AList.lookup_insert_ne hne).trans hcall, rfl⟩
  | send id => exact hproceed fun _ => rfl
  | registerQueue id => exact hproceed fun _ => rfl
  | registerWriter id => exact hproceed fun _ => rfl
  | drain id accepted => exact hproceed fun _ => rfl
  | abandon id => exact hproceed fun _ => rfl
  | openClient => exact ⟨call, hcall, rfl⟩
  | clientChunk id req => exact ⟨call, hcall, rfl⟩
  | upstreamEvent rsp => exact ⟨call, hcall, rfl⟩
  | advance startedAt now endedAt =>
    simp only [Server.step, Server.advance]
    split
    · refine ⟨_, by rw [streams_deliver, hcall, Option.map_some], ?_⟩
      split <;> rfl
    · split
      · exact ⟨call, hcall, rfl⟩
      · split
        · exact ⟨call, hcall, rfl⟩
        · rw [streams_tick]
          exact ⟨call, hcall, rfl⟩

/-- A move that draws no identifier and whose calls come from calls with the same requests. -/
theorem Orderly.frame {σ' : Server} (h : Orderly σ) (hcollector : σ'.hb.changeset = {})
    (hctr : σ.ctr ≤ σ'.ctr)
    (hstreams : ∀ {id call'}, σ'.streams.lookup id = some call' →
      ∃ call, σ.streams.lookup id = some call ∧ call'.request = call.request)
    (hclients : ∀ {id call'}, σ'.clients.lookup id = some call' →
      ∃ call, σ.clients.lookup id = some call)
    (hevents : ∀ m ∈ σ'.wsEventChannel, ∃ rsp, m = .response rsp) : Orderly σ' where
  collector := hcollector
  named := fun hcall' => by
    obtain ⟨call, hcall, hrequest⟩ := hstreams hcall'
    obtain ⟨hreq, n, hn, hid⟩ := h.named hcall
    exact ⟨hrequest ▸ hreq, n, by omega, hid⟩
  clients := fun hcall' => by
    obtain ⟨call, hcall⟩ := hclients hcall'
    exact h.clients hcall
  events := hevents

/-- A handler that goes on with its request. -/
theorem Orderly.proceed (h : Orderly σ) {id : String} {phase : StreamPhase}
    {f : StreamCall → StreamCall} (hf : ∀ call, (f call).request = call.request) :
    Orderly (σ.proceed id phase f) := by
  refine h.frame h.collector (Nat.le_refl _) (fun hcall' => ?_) (fun hcall => ⟨_, hcall⟩) h.events
  rw [lookup_proceed] at hcall'
  obtain ⟨call, hcall, rfl⟩ := Option.map_eq_some_iff.mp hcall'
  refine ⟨call, hcall, ?_⟩
  split
  · exact hf call
  · rfl

/-- Handing over a response keeps all names. -/
theorem Orderly.deliver (h : Orderly σ) : Orderly (σ.deliver w addressee) := by
  have hframe : (σ.deliver w addressee).hb = σ.hb ∧ (σ.deliver w addressee).ctr = σ.ctr ∧
      (σ.deliver w addressee).wsEventChannel = σ.wsEventChannel := by
    cases addressee <;> exact ⟨rfl, rfl, rfl⟩
  obtain ⟨hhb, hctr, hevents⟩ := hframe
  refine h.frame (hhb ▸ h.collector) hctr.ge (fun hcall' => ?_) (fun hcall' => ?_)
    (hevents ▸ h.events)
  · rw [streams_deliver] at hcall'
    obtain ⟨call, hcall, rfl⟩ := Option.map_eq_some_iff.mp hcall'
    exact ⟨call, hcall, by split <;> rfl⟩
  · rw [clients_deliver] at hcall'
    split at hcall'
    · obtain ⟨call, hcall, -⟩ := Option.map_eq_some_iff.mp hcall'
      exact ⟨call, hcall⟩
    · exact ⟨_, hcall'⟩

/-- Every move keeps the names in order. -/
theorem Orderly.step (h : Orderly σ) (ev : ServerEvent) : Orderly (σ.step env ev) := by
  cases ev with
  | openStream parsed =>
    cases parsed with
    | none =>
      exact h.frame h.collector (Nat.le_succ _) (fun hcall => ⟨_, hcall, rfl⟩)
        (fun hcall => ⟨_, hcall⟩) h.events
    | some req =>
      refine ⟨h.collector, fun {id call} hcall => ?_, h.clients, h.events⟩
      by_cases hid : id = generateRequestId "strm" σ.ctr
      · subst hid
        obtain rfl := Option.some.inj ((AList.lookup_insert σ.streams).symm.trans hcall)
        exact ⟨rfl, σ.ctr, Nat.lt_succ_self _, rfl⟩
      · obtain ⟨hreq, n, hn, hname⟩ := h.named ((AList.lookup_insert_ne hid).symm.trans hcall)
        exact ⟨hreq, n, Nat.lt_succ_of_lt hn, hname⟩
  | send id =>
    have hproceed := @h.proceed σ id .parsed (fun call => { call with phase := .sent }) fun _ => rfl
    exact ⟨hproceed.collector, hproceed.named, hproceed.clients, hproceed.events⟩
  | registerQueue id => exact h.proceed fun _ => rfl
  | registerWriter id => exact h.proceed fun _ => rfl
  | drain id accepted => exact h.proceed fun _ => rfl
  | abandon id => exact h.proceed fun _ => rfl
  | openClient =>
    refine ⟨h.collector, fun hcall => ?_, fun {id call} hcall => ?_, h.events⟩
    · obtain ⟨hreq, n, hn, hname⟩ := h.named hcall
      exact ⟨hreq, n, Nat.lt_succ_of_lt hn, hname⟩
    · by_cases hid : id = generateRequestId "cli" σ.ctr
      · exact ⟨σ.ctr, hid⟩
      · exact h.clients ((AList.lookup_insert_ne hid).symm.trans hcall)
  | clientChunk id req => exact ⟨h.collector, h.named, h.clients, h.events⟩
  | upstreamEvent rsp =>
    refine ⟨h.collector, h.named, h.clients, fun m hm => ?_⟩
    rcases List.mem_append.mp hm with hm | hm
    · exact h.events m hm
    · exact ⟨rsp, List.mem_singleton.mp hm⟩
  | advance startedAt now endedAt =>
    simp only [Server.step, Server.advance]
    split
    · exact h.deliver
    · split
      · exact ⟨h.collector, h.named, h.clients, h.events⟩
      · split
        · exact ⟨h.collector, h.named, h.clients, h.events⟩
        · have hcollector : (Heartbeat.tick env
              { requests := σ.requestChannel, events := σ.wsEventChannel, startedAt, now, endedAt }
              σ.hb).2.changeset = {} := rfl
          unfold Server.tick
          generalize Heartbeat.tick env _ σ.hb = r at hcollector ⊢
          exact ⟨hcollector, h.named, h.clients, fun m hm => absurd hm List.not_mem_nil⟩

/-- A new server is in order. -/
theorem start_orderly (maxSize : Nat) (idleTimeout maxLifetime : Duration) :
    Orderly { hb := start maxSize idleTimeout maxLifetime } where
  collector := rfl
  named := fun hcall => by cases hcall
  clients := fun hcall => by cases hcall
  events := fun m hm => absurd hm List.not_mem_nil

/-! ### The answers to one call -/

/-- The answers that the call has asked for: one, once its request has been sent. -/
def asked (engine : LocalTtsEngine) (rid : String) (σ : Server) : List WriteToClient :=
  ((σ.streams.lookup rid).filter fun call => call.phase ≠ .parsed).toList.map
    fun call => MainLoop.writeFor engine call.request

/-- The request of the call, if it has been opened, is for the local engine. -/
def LocalCall (env : Env) (rid : String) (σ : Server) : Prop :=
  ∀ {call}, σ.streams.lookup rid = some call → shouldUseLocal env call.request = true

/-- What holds of a stream call that is local throughout a run: no stage makes up an answer for
it, and its handler has got what has been dispatched, if anything. -/
structure Answering (env : Env) (engine : LocalTtsEngine) (k : Nat) (σ : Server) : Prop where
  unbound : σ.hb.Unbound (generateRequestId "strm" k)
  channel : ∀ m ∈ σ.requestChannel, LocalFor env (generateRequestId "strm" k) m
  stages : ((σ.stages engine).filter fun w => w.requestId = generateRequestId "strm" k).Sublist
    (σ.asked engine (generateRequestId "strm" k))
  handler : ∀ {call}, σ.streams.lookup (generateRequestId "strm" k) = some call →
    (call.written ++ call.localQueue).Sublist (σ.dispatchedFor (generateRequestId "strm" k))

variable {k : Nat}

/-- What a call has asked for is one answer, once it has been sent. -/
theorem asked_eq (hcall : σ.streams.lookup rid = some call) :
    σ.asked engine rid =
      if call.phase = .parsed then [] else [MainLoop.writeFor engine call.request] := by
  rw [asked, hcall]
  by_cases hphase : call.phase = .parsed
  · simp [Option.filter, hphase]
  · simp [Option.filter, hphase]

/-- Nothing is asked for a call that is not there. -/
theorem asked_eq_nil (hcall : σ.streams.lookup rid = none) : σ.asked engine rid = [] := by
  simp [asked, hcall]

/-- What has been dispatched for a call comes first among its stages. -/
theorem dispatchedFor_sublist :
    (σ.dispatchedFor rid).Sublist ((σ.stages engine).filter fun w => w.requestId = rid) := by
  refine List.Sublist.filter _ ?_
  unfold Server.stages
  simp only [List.append_assoc]
  exact List.sublist_append_left _ _

/-- The client of a local call has received the answer to its request, or nothing. -/
theorem Answering.written_eq (h : Answering env engine k σ)
    (hcall : σ.streams.lookup (generateRequestId "strm" k) = some call) :
    call.written = [] ∨ call.written = [MainLoop.writeFor engine call.request] := by
  have hasked : call.written.Sublist (σ.asked engine (generateRequestId "strm" k)) :=
    ((List.sublist_append_left _ _).trans (h.handler hcall)).trans
      (dispatchedFor_sublist.trans h.stages)
  rw [asked_eq hcall] at hasked
  split at hasked
  · exact Or.inl (List.sublist_nil.mp hasked)
  · exact List.sublist_singleton.mp hasked

/-- A move that changes neither the stages nor what concerns the call. -/
theorem Answering.frame {σ' : Server} (h : Answering env engine k σ) (hhb : σ'.hb = σ.hb)
    (hchannel : σ'.requestChannel = σ.requestChannel)
    (hstages : σ'.stages engine = σ.stages engine)
    (hasked : (σ.asked engine (generateRequestId "strm" k)).Sublist
      (σ'.asked engine (generateRequestId "strm" k)))
    (hhandler : ∀ {call'}, σ'.streams.lookup (generateRequestId "strm" k) = some call' →
      (call'.written ++ call'.localQueue).Sublist
        (σ'.dispatchedFor (generateRequestId "strm" k))) :
    Answering env engine k σ' :=
  ⟨hhb ▸ h.unbound, hchannel ▸ h.channel, hstages ▸ h.stages.trans hasked, hhandler⟩

/-- A handler that has sent its request goes on. -/
theorem Answering.proceed (h : Answering env engine k σ) {id : String} {phase : StreamPhase}
    {f : StreamCall → StreamCall}
    (hf : ∀ call, call.phase = phase → (f call).request = call.request ∧
      (f call).phase ≠ .parsed ∧
      ((f call).written ++ (f call).localQueue).Sublist (call.written ++ call.localQueue)) :
    Answering env engine k (σ.proceed id phase f) := by
  refine h.frame rfl rfl rfl ?_ fun {call'} hcall' => ?_
  · cases hcall : σ.streams.lookup (generateRequestId "strm" k) with
    | none =>
      rw [asked_eq_nil hcall]
      exact List.nil_sublist _
    | some call =>
      have hcall' : (σ.proceed id phase f).streams.lookup (generateRequestId "strm" k) = some _ :=
        lookup_proceed.trans (by rw [hcall, Option.map_some])
      rw [asked_eq hcall, asked_eq hcall']
      split
      · exact List.nil_sublist _
      · split
        · next hmoved =>
          obtain ⟨hrequest, hsent, -⟩ := hf call hmoved.2
          rw [if_neg hsent, hrequest]
        · exact List.Sublist.refl _
  · rw [lookup_proceed] at hcall'
    obtain ⟨call, hcall, rfl⟩ := Option.map_eq_some_iff.mp hcall'
    split
    · next hmoved => exact (hf call hmoved.2).2.2.trans (h.handler hcall)
    · exact h.handler hcall

/-- What a handler writes comes from its queue, in order. -/
theorem writeDrained_sublist (n : Nat) (ws : List WriteToClient) :
    (writeDrained n ws).1.Sublist ws := by
  induction ws generalizing n with
  | nil => cases n <;> exact List.Sublist.refl _
  | cons w ws ih =>
    cases n with
    | zero => exact List.nil_sublist _
    | succ n =>
      rw [writeDrained]
      split
      · exact (List.nil_sublist ws).cons_cons w
      · exact (ih n).cons_cons w

/-- A round of the drain loop takes the queue over, as far as the client accepts it. -/
theorem drain_sublist (accepted : Nat) (call : StreamCall) :
    ((call.drain accepted).written ++ (call.drain accepted).localQueue).Sublist
      (call.written ++ call.localQueue) := by
  simp only [StreamCall.drain, List.append_nil]
  exact (List.Sublist.refl _).append (writeDrained_sublist accepted call.localQueue)

/-- Requests enter the channel: those of other calls, or the one that the call has asked for. -/
theorem Answering.enqueue (h : Answering env engine k σ) {rs : List TtsRequestMsg}
    (hlocal : ∀ r ∈ rs, r.requestId = generateRequestId "strm" k → shouldUseLocal env r = true)
    (hasked : ((σ.stages engine).filter (fun w => w.requestId = generateRequestId "strm" k) ++
      (rs.filter fun r => r.requestId = generateRequestId "strm" k).map
        (MainLoop.writeFor engine)).Sublist (σ.asked engine (generateRequestId "strm" k))) :
    Answering env engine k { σ with requestChannel := σ.requestChannel ++ rs.map .request } := by
  have hanswers : (rs.map Message.request).filterMap answerWrite = [] := by
    simp [List.filterMap_map, answerWrite]
  have hrequests : (rs.map Message.request).filterMap Message.request? = rs := by
    simp [List.filterMap_map, Function.comp_def, Message.request?]
  refine ⟨h.unbound, fun m hm => ?_, ?_, h.handler⟩
  · rcases List.mem_append.mp hm with hm | hm
    · exact h.channel m hm
    · obtain ⟨r, hr, rfl⟩ := List.mem_map.mp hm
      intro req hreq hid
      obtain rfl : r = req := by simpa using hreq
      exact hlocal r hr hid
  · have hstages : Server.stages engine
        { σ with requestChannel := σ.requestChannel ++ rs.map .request } =
          σ.stages engine ++ rs.map (MainLoop.writeFor engine) := by
      simp only [Server.stages, List.filterMap_append, hanswers, hrequests, List.append_nil,
        List.map_append, List.append_assoc]
    rw [hstages, List.filter_append, filter_map_writeFor]
    exact hasked

/-- Requests of other calls enter the channel. -/
theorem Answering.enqueue_others (h : Answering env engine k σ) {rs : List TtsRequestMsg}
    (hother : ∀ r ∈ rs, r.requestId ≠ generateRequestId "strm" k) :
    Answering env engine k { σ with requestChannel := σ.requestChannel ++ rs.map .request } := by
  refine h.enqueue (fun r hr hid => absurd hid (hother r hr)) ?_
  have hnone : (rs.filter fun r => r.requestId = generateRequestId "strm" k) = [] :=
    List.filter_eq_nil_iff.mpr fun r hr heq => hother r hr (of_decide_eq_true heq)
  rw [hnone, List.map_nil, List.append_nil]
  exact h.stages

/-- A handler sends its request. Before that, no stage holds anything for its call. -/
theorem Answering.send (h : Answering env engine k σ) (horderly : Orderly σ)
    (hlocal : LocalCall env (generateRequestId "strm" k) σ) (id : String) :
    Answering env engine k (σ.step env (.send id)) := by
  have hproceed : Answering env engine k
      (σ.proceed id .parsed fun call => { call with phase := .sent }) :=
    h.proceed fun call _ => ⟨rfl, by simp, List.Sublist.refl _⟩
  cases hsent : (σ.streams.lookup id).filter fun call => call.phase = .parsed with
  | none =>
    have hnothing := @hproceed.enqueue_others env engine _ k [] (List.forall_mem_nil _)
    simp only [Server.step, hsent]
    exact hnothing
  | some call =>
    obtain ⟨hcall, hparsed⟩ := Option.filter_eq_some_iff.mp hsent
    have hphase : call.phase = .parsed := of_decide_eq_true hparsed
    have hname : call.request.requestId = id := (horderly.named hcall).1
    have hsends : Answering env engine k
        { σ.proceed id .parsed fun call => { call with phase := .sent } with
          requestChannel := σ.requestChannel ++ [call.request].map .request } := by
      by_cases hid : id = generateRequestId "strm" k
      · subst hid
        refine hproceed.enqueue (fun r hr _ => List.mem_singleton.mp hr ▸ hlocal hcall) ?_
        have hbefore := h.stages
        rw [asked_eq hcall, if_pos hphase] at hbefore
        have hnone : ((σ.proceed (generateRequestId "strm" k) .parsed fun call =>
            { call with phase := .sent }).stages engine).filter
              (fun w => w.requestId = generateRequestId "strm" k) = [] :=
          List.sublist_nil.mp hbefore
        have hcall' : (σ.proceed (generateRequestId "strm" k) .parsed fun call =>
            { call with phase := .sent }).streams.lookup (generateRequestId "strm" k) =
              some { call with phase := .sent } := by
          rw [lookup_proceed, hcall, Option.map_some, if_pos ⟨rfl, hphase⟩]
        rw [hnone, List.nil_append, asked_eq hcall']
        exact List.filter_sublist.map _
      · refine hproceed.enqueue_others fun r hr => ?_
        rw [List.mem_singleton.mp hr, hname]
        exact hid
    simp only [Server.step, hsent]
    exact hsends

/-- A new stream call, the one in question or another. -/
theorem Answering.openStream (h : Answering env engine k σ) (horderly : Orderly σ)
    (parsed : Option TtsRequestMsg) :
    Answering env engine k (σ.step env (.openStream parsed)) := by
  cases parsed with
  | none => exact h.frame rfl rfl rfl (List.Sublist.refl _) h.handler
  | some req =>
    by_cases hk : k = σ.ctr
    · have hnone : σ.streams.lookup (generateRequestId "strm" k) = none := by
        cases hcall : σ.streams.lookup (generateRequestId "strm" k) with
        | none => rfl
        | some call =>
          obtain ⟨-, n, hn, hname⟩ := horderly.named hcall
          have hctr := generateRequestId_injective hname
          omega
      have hnew : (σ.step env (.openStream (some req))).streams.lookup
          (generateRequestId "strm" k) =
            some { request := { req with requestId := generateRequestId "strm" k } } := by
        rw [hk]
        exact AList.lookup_insert _
      refine h.frame rfl rfl rfl ?_ fun {call'} hcall' => ?_
      · rw [asked_eq_nil hnone]
        exact List.nil_sublist _
      · obtain rfl := Option.some.inj (hnew.symm.trans hcall')
        exact List.nil_sublist _
    · have hsame : (σ.step env (.openStream (some req))).streams.lookup
          (generateRequestId "strm" k) = σ.streams.lookup (generateRequestId "strm" k) :=
        AList.lookup_insert_ne fun heq => hk (generateRequestId_injective heq)
      refine h.frame rfl rfl rfl ?_ fun hcall' => h.handler (hsame.symm.trans hcall')
      simp only [asked, hsame]
      exact List.Sublist.refl _

/-- Handing over a response. If it goes to the queue of the call, it is dispatched for it. -/
theorem Answering.deliver (h : Answering env engine k σ) (hhand : σ.inHand = some (w, addressee)) :
    Answering env engine k (σ.deliver w addressee) := by
  have hframe : (σ.deliver w addressee).hb = σ.hb ∧
      (σ.deliver w addressee).requestChannel = σ.requestChannel := by
    cases addressee <;> exact ⟨rfl, rfl⟩
  refine h.frame hframe.1 hframe.2 (stages_deliver hhand) ?_ fun {call'} hcall' => ?_
  · cases hcall : σ.streams.lookup (generateRequestId "strm" k) with
    | none =>
      rw [asked_eq_nil hcall]
      exact List.nil_sublist _
    | some call =>
      have hcall' : (σ.deliver w addressee).streams.lookup (generateRequestId "strm" k) = some _ :=
        streams_deliver.trans (by rw [hcall, Option.map_some])
      rw [asked_eq hcall, asked_eq hcall']
      have hsame : ∀ call' : StreamCall, call' = (if addressee = .localQueue ∧
          generateRequestId "strm" k = w.requestId then
            { call with localQueue := call.localQueue ++ [w] } else call) →
          call'.phase = call.phase ∧ call'.request = call.request := by
        rintro call' rfl
        split <;> exact ⟨rfl, rfl⟩
      obtain ⟨hphase, hrequest⟩ := hsame _ rfl
      rw [hphase, hrequest]
  · rw [streams_deliver] at hcall'
    obtain ⟨call, hcall, rfl⟩ := Option.map_eq_some_iff.mp hcall'
    rw [dispatchedFor_deliver]
    split
    · next hqueue =>
      rw [if_pos hqueue.2.symm, ← List.append_assoc]
      exact (h.handler hcall).append (List.Sublist.refl _)
    · exact (h.handler hcall).trans (List.sublist_append_left _ _)

/-- Running the next job moves it from the jobs to the answers. -/
theorem Answering.job (h : Answering env engine k σ) (hengine : env.localEngine = some engine)
    {job : LocalSynthJob} {jobs : List LocalSynthJob} (hjobs : σ.localJobs = job :: jobs) :
    Answering env engine k { σ with
      localJobs := jobs
      requestChannel := σ.requestChannel ++
        (env.localEngine.map fun engine => runJob engine job).toList } := by
  have hanswer := answerWrite_runJob engine job
  have hnorequest : (runJob engine job).request? = none := by
    unfold runJob
    simp only
    split <;> rfl
  refine ⟨h.unbound, fun m hm => ?_, ?_, h.handler⟩
  · rcases List.mem_append.mp hm with hm | hm
    · exact h.channel m hm
    · simp only [hengine, Option.map_some, Option.toList_some, List.mem_singleton] at hm
      intro req hreq
      rw [← hm, hreq] at hnorequest
      cases hnorequest
  · have hstages : Server.stages engine { σ with
        localJobs := jobs
        requestChannel := σ.requestChannel ++
          (env.localEngine.map fun engine => runJob engine job).toList } = σ.stages engine := by
      simp [Server.stages, hengine, hjobs, List.filterMap_append, hanswer, hnorequest]
    rw [hstages]
    exact h.stages

/-- A tick moves answers to the responses to be looked up, and requests that it admits to the
jobs. Nothing else is written under the identifier, because no session works for it. -/
theorem Answering.tick (h : Answering env engine k σ) (horderly : Orderly σ)
    (hhand : σ.inHand = none) (hwrites : σ.clientWrites = []) (hjobs : σ.localJobs = [])
    {startedAt now endedAt : TimePoint} :
    Answering env engine k (σ.tick env startedAt now endedAt) := by
  have hnoanswer : σ.wsEventChannel.filterMap answerWrite = [] := by
    rw [List.filterMap_eq_nil_iff]
    intro m hm
    obtain ⟨rsp, rfl⟩ := horderly.events m hm
    rfl
  have hnorequest : σ.wsEventChannel.filterMap Message.request? = [] := by
    rw [List.filterMap_eq_nil_iff]
    intro m hm
    obtain ⟨rsp, rfl⟩ := horderly.events m hm
    rfl
  have hlocal : ∀ m ∈ TickInput.batch
      { requests := σ.requestChannel, events := σ.wsEventChannel, startedAt, now, endedAt },
      LocalFor env (generateRequestId "strm" k) m := by
    intro m hm
    rcases List.mem_append.mp hm with hm | hm
    · exact h.channel m hm
    · obtain ⟨rsp, rfl⟩ := horderly.events m hm
      exact fun req hreq => by cases hreq
  have hbatch : TickInput.batch
      { requests := σ.requestChannel, events := σ.wsEventChannel, startedAt, now, endedAt } =
        σ.requestChannel ++ σ.wsEventChannel := rfl
  have hadmitted := admissions_sublist env σ.hb.beginTick (σ.requestChannel ++ σ.wsEventChannel)
  rw [List.filterMap_append, hnorequest, List.append_nil] at hadmitted
  obtain ⟨hunbound, htickWrites, htickJobs⟩ := h.unbound.tick horderly.collector hlocal
  rw [hbatch, List.filterMap_append, hnoanswer, List.append_nil] at htickWrites
  rw [hbatch] at htickJobs
  -- nothing but these facts about the outcome of the tick matters
  unfold Server.tick
  generalize Heartbeat.tick env
    { requests := σ.requestChannel, events := σ.wsEventChannel, startedAt, now, endedAt }
    σ.hb = r at hunbound htickWrites htickJobs ⊢
  refine ⟨hunbound, fun m hm => absurd hm List.not_mem_nil, ?_, h.handler⟩
  refine List.Sublist.trans ?_ h.stages
  simp only [Server.stages, hhand, hwrites, hjobs, Option.map_none, Option.toList_none,
    List.append_nil, List.filterMap_nil, List.map_nil, List.filter_append, filter_map_writeFor,
    filter_map_jobWrite, htickWrites, htickJobs, List.map_map]
  exact (List.Sublist.refl _).append ((hadmitted.filter _).map _)

/-- Every move keeps the answers of a local call its own. -/
theorem Answering.step (h : Answering env engine k σ) (horderly : Orderly σ)
    (hengine : env.localEngine = some engine)
    (hlocal : LocalCall env (generateRequestId "strm" k) σ) (ev : ServerEvent) :
    Answering env engine k (σ.step env ev) := by
  cases ev with
  | openStream parsed => exact h.openStream horderly parsed
  | send id => exact h.send horderly hlocal id
  | registerQueue id =>
    exact h.proceed fun call _ => ⟨rfl, by simp, List.Sublist.refl _⟩
  | registerWriter id =>
    exact h.proceed fun call _ => ⟨rfl, by simp, List.Sublist.refl _⟩
  | drain id accepted =>
    refine h.proceed fun call hphase => ⟨rfl, ?_, drain_sublist accepted call⟩
    simp only [StreamCall.drain, hphase]
    split <;> decide
  | abandon id => exact h.proceed fun call _ => ⟨rfl, by simp, List.Sublist.refl _⟩
  | openClient => exact h.frame rfl rfl rfl (List.Sublist.refl _) h.handler
  | clientChunk id req =>
    have hother : ∀ r ∈ (σ.clients.lookup id).toList.map fun _ => { req with requestId := id },
        r.requestId ≠ generateRequestId "strm" k := by
      intro r hr
      obtain ⟨call, hcall, rfl⟩ := List.mem_map.mp hr
      obtain ⟨n, hid⟩ := horderly.clients (Option.mem_toList.mp hcall)
      exact fun heq => generateRequestId_strm_ne_cli k n (heq.symm.trans hid)
    have hsent := h.enqueue_others hother
    rw [List.map_map] at hsent
    exact hsent
  | upstreamEvent rsp => exact h.frame rfl rfl rfl (List.Sublist.refl _) h.handler
  | advance startedAt now endedAt =>
    simp only [Server.step, Server.advance]
    split
    · exact h.deliver ‹_›
    · rename_i hhand
      split
      · next w ws hwrites =>
        refine h.frame rfl rfl ?_ (List.Sublist.refl _) h.handler
        simp [Server.stages, hhand, hwrites]
      · rename_i hwrites
        split
        · exact h.job hengine ‹_›
        · exact h.tick horderly hhand hwrites ‹_›

/-- In a new server nothing has been asked for. -/
theorem start_answering (maxSize : Nat) (idleTimeout maxLifetime : Duration) :
    Answering env engine k { hb := start maxSize idleTimeout maxLifetime } where
  unbound := ⟨start_poolWf maxSize idleTimeout maxLifetime,
    fun hs => by simp [start, DataBoard.empty, SessionPool.get] at hs,
    fun hp => by simp [start, DataBoard.empty, PendingRequestStore.get] at hp⟩
  channel := fun m hm => absurd hm List.not_mem_nil
  stages := List.Sublist.refl _
  handler := fun hcall => by cases hcall

/-- The state after any run: names are in order, and a call that is local gets answers to its
own request only. -/
theorem run_answering (hengine : env.localEngine = some engine) (maxSize : Nat)
    (idleTimeout maxLifetime : Duration) (events : List ServerEvent) :
    Orderly (run env { hb := start maxSize idleTimeout maxLifetime } events) ∧
      (LocalCall env (generateRequestId "strm" k)
          (run env { hb := start maxSize idleTimeout maxLifetime } events) →
        Answering env engine k
          (run env { hb := start maxSize idleTimeout maxLifetime } events)) := by
  refine List.foldlRecOn events (step env) (motive := fun σ => Orderly σ ∧
      (LocalCall env (generateRequestId "strm" k) σ → Answering env engine k σ))
    ⟨start_orderly maxSize idleTimeout maxLifetime,
      fun _ => start_answering maxSize idleTimeout maxLifetime⟩ fun σ ⟨horderly, hanswering⟩ ev _ =>
    ⟨horderly.step ev, fun hlocal' => ?_⟩
  -- the call was local before, since its request does not change
  have hlocal : LocalCall env (generateRequestId "strm" k) σ := by
    intro call hcall
    obtain ⟨call', hcall', hrequest⟩ := @horderly.lookup_step env _ _ _ hcall ev
    exact hrequest ▸ hlocal' hcall'
  exact (hanswering hlocal).step horderly hengine hlocal ev

/-- A local call of any run is answered as long as the run goes on. -/
theorem answering_of_lookup (hengine : env.localEngine = some engine) (maxSize : Nat)
    (idleTimeout maxLifetime : Duration) (events : List ServerEvent)
    (hcall : (run env { hb := start maxSize idleTimeout maxLifetime } events).streams.lookup rid =
      some call) (hlocal : shouldUseLocal env call.request = true) :
    ∃ k, rid = generateRequestId "strm" k ∧ Answering env engine k
      (run env { hb := start maxSize idleTimeout maxLifetime } events) := by
  have horderly : Orderly (run env { hb := start maxSize idleTimeout maxLifetime } events) :=
    (@run_answering env engine 0 hengine maxSize idleTimeout maxLifetime events).1
  obtain ⟨-, k, -, rfl⟩ := horderly.named hcall
  refine ⟨k, rfl, (run_answering hengine maxSize idleTimeout maxLifetime events).2 ?_⟩
  intro call' hcall'
  rwa [← Option.some.inj (hcall.symm.trans hcall')]

/-- **A local stream call receives the answer to its own request, once, or nothing**: in any
interleaving of any number of calls, chunks and upstream events. -/
theorem stream_receives_own_answer (env : Env) (engine : LocalTtsEngine)
    (hengine : env.localEngine = some engine) (maxSize : Nat) (idleTimeout maxLifetime : Duration)
    (events : List ServerEvent) {rid : String} {call : StreamCall}
    (hcall : (run env { hb := start maxSize idleTimeout maxLifetime } events).streams.lookup rid =
      some call) (hlocal : shouldUseLocal env call.request = true) :
    call.written = [] ∨ call.written = [MainLoop.writeFor engine call.request] := by
  obtain ⟨k, rfl, hanswering⟩ :=
    answering_of_lookup hengine maxSize idleTimeout maxLifetime events hcall hlocal
  exact hanswering.written_eq hcall

/-- A prompt handler has written the one response. -/
theorem stream_receives_own_answer_promptRun :
    ∃ call, (run sampleLocalEnv { hb := start 16 (seconds 60) (seconds 3600) }
        (promptRun ++ [.drain "strm-1" 1])).streams.lookup "strm-1" = some call ∧
      call.written.length = 1 ∧
      (call.written = [] ∨ call.written = [MainLoop.writeFor
        { isReady := true, synthesize := fun _ _ _ => {} } call.request]) := by
  have hstate : ((run sampleLocalEnv { hb := start 16 (seconds 60) (seconds 3600) }
      (promptRun ++ [.drain "strm-1" 1])).streams.lookup "strm-1").map (fun call =>
        (shouldUseLocal sampleLocalEnv call.request, call.written.length)) = some (true, 1) := by
    decide +kernel
  obtain ⟨call, hcall, hfields⟩ := Option.map_eq_some_iff.mp hstate
  obtain ⟨hlocal, hlength⟩ := Prod.mk.inj hfields
  exact ⟨call, hcall, hlength, stream_receives_own_answer sampleLocalEnv _ rfl 16 (seconds 60)
    (seconds 3600) _ hcall hlocal⟩

end Server

end TtsServer
