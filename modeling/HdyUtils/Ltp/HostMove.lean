import HdyUtils.Ltp.Host

/-! What one call does.  Under the invariant `Engine.Owned` a call is a move of one send session or
of one receive session, or it starts a tick, or it changes no session; `SendChange` and `RecvChange`
are what this means for a given session. -/

namespace HdyUtils.Ltp

/-! ### Ownership -/

theorem SendMove.sound {config : EngineConfig} {sid : SessionId} {trigger : SendTrigger}
    {v v' : SendView} {p : List Push} {n : List Notice}
    (h : SendMove config sid trigger v p n v')
    (hv : ∀ s, v.session = some s → s.Sound sid config.maxBlockSize.toNat) :
    ∀ s, v'.session = some s → s.Sound sid config.maxBlockSize.toNat := by
  intro t ht
  cases h with
  | openGreen | reportIgnored | expiredIdle | inactivityRearmed => exact hv t ht
  | openRed hsound =>
    cases ht
    exact hsound
  | @reportRepeated source rs now s armed armed' =>
    cases ht
    have hs := hv s rfl
    exact { hs with records := fun serial cp hcp => (hs.claim rs now).records serial cp hcp }
  | reportAnswered hanswer =>
    cases ht
    exact hanswer.sound
  | @checkpointResent serial now s cp armed hcp =>
    cases ht
    have hs := hv s rfl
    refine { hs with records := fun serial' cp' hcp' => ?_ }
    rw [Maps.getElem?_insert] at hcp'
    split at hcp'
    · rename_i heq
      cases hcp'
      obtain ⟨hserial, hwithin⟩ := hs.records serial cp hcp
      exact ⟨hserial.trans heq, { hwithin with }⟩
    · exact hs.records serial' cp' hcp'
  | @checkpointExhausted serial now s =>
    cases ht
    exact { hv s rfl with }
  | @cancelResent now s =>
    cases ht
    exact { hv s rfl with }
  | reportCompleted | cancelAbandoned | inactivityExpired | peerCancelled | peerCancelledAgain
  | cancelAcked => cases ht

/-- The send sessions of an engine are sound and its own, and its receive sessions are not. -/
structure Engine.Owned (e : Engine) : Prop where
  send : ∀ (sid : SessionId) (s : SendSession), e.sendSessions[sid]? = some s →
    sid.originator = e.config.engineId ∧ s.Sound sid e.config.maxBlockSize.toNat
  recv : ∀ (sid : SessionId) (s : RecvSession), e.recvSessions[sid]? = some s →
    sid.originator ≠ e.config.engineId

namespace Engine

variable {sid : SessionId} {e e' : Engine} {p : List Push} {n : List Notice}

theorem Owned.send_none (h : e.Owned) (hsid : sid.originator ≠ e.config.engineId) :
    e.sendSessions[sid]? = none := by
  by_contra hne
  obtain ⟨s, hs⟩ := Option.ne_none_iff_exists'.mp hne
  exact hsid (h.send sid s hs).1

theorem Owned.recv_none (h : e.Owned) (hsid : sid.originator = e.config.engineId) :
    e.recvSessions[sid]? = none := by
  by_contra hne
  obtain ⟨s, hs⟩ := Option.ne_none_iff_exists'.mp hne
  exact h.recv sid s hs hsid

theorem owned_new (config : EngineConfig) : (new config).Owned :=
  ⟨by simp [new], by simp [new]⟩

theorem Owned.movesSend {trigger : SendTrigger} (h : e.Owned)
    (hsid : sid.originator = e.config.engineId) (hmoves : MovesSend sid trigger p n e e') :
    e'.Owned := by
  have hconfig := hmoves.acts.config
  refine ⟨fun t s hs => ?_, fun t s hs => ?_⟩
  · rw [hconfig]
    by_cases ht : t = sid
    · subst ht
      exact ⟨hsid, hmoves.move.sound (fun s hs => (h.send t s hs).2) s hs⟩
    · rw [hmoves.acts.send t ht] at hs
      exact h.send t s hs
  · rw [hconfig]
    by_cases ht : t = sid
    · subst ht
      rw [hmoves.recv (h.recv_none hsid)] at hs
      cases hs
    · rw [hmoves.acts.recv t ht] at hs
      exact h.recv t s hs

theorem Owned.movesRecv {trigger : RecvTrigger} (h : e.Owned)
    (hsid : sid.originator ≠ e.config.engineId) (hmoves : MovesRecv sid trigger p n e e') :
    e'.Owned := by
  have hconfig := hmoves.acts.config
  refine ⟨fun t s hs => ?_, fun t s hs => ?_⟩
  · rw [hconfig]
    by_cases ht : t = sid
    · subst ht
      rw [hmoves.send (h.send_none hsid)] at hs
      cases hs
    · rw [hmoves.acts.send t ht] at hs
      exact h.send t s hs
  · rw [hconfig]
    by_cases ht : t = sid
    · subst ht
      exact hsid
    · rw [hmoves.acts.recv t ht] at hs
      exact h.recv t s hs

end Engine

/-! ### Taking the expired timers -/

theorem mem_drainExpired (now fuel : Nat) (table : TimerTable) (key : TimerKey) :
    table.deadline? key ≠ none ↔ (Engine.drainExpired now fuel table).2.deadline? key ≠ none ∨
      key ∈ (Engine.drainExpired now fuel table).1 := by
  induction fuel generalizing table with
  | zero => simp [Engine.drainExpired]
  | succ fuel ih =>
    rw [Engine.drainExpired]
    cases hpoll : table.pollExpired now with
    | none => simp
    | some out =>
      obtain ⟨first, rest⟩ := out
      obtain ⟨rfl, d, hdue, -⟩ := TimerTable.pollExpired_some hpoll
      have hrest := ih (table.cancel first)
      rw [TimerTable.deadline?_cancel] at hrest
      by_cases hkey : first = key
      · subst hkey
        simp [hdue]
      · simp only [hkey, if_false] at hrest
        rw [hrest, List.mem_cons]
        simp [Ne.symm hkey]

theorem Engine.armed_expire (e : Engine) (now : Nat) (sid : SessionId) (kind : TimerKind) :
    kind ∈ e.armed sid ↔ kind ∈ (e.expire now).2.armed sid ∨ ⟨sid, kind⟩ ∈ (e.expire now).1 :=
  mem_drainExpired now _ e.timerTable ⟨sid, kind⟩

/-! ### Calls -/

/-- What a segment means to the session that sent it, or receives from it, at `peer`. -/
def SegmentBody.sendTrigger (peer : EngineId) : SegmentBody → Option SendTrigger
  | .report rs => some (.report peer rs)
  | .cancelReceiver reason => some (.peerCancel peer reason)
  | .cancelAckSender => some .cancelAck
  | _ => none

def SegmentBody.recvTrigger (peer : EngineId) (now : Nat) : SegmentBody → Option RecvTrigger
  | .data ds => some (.data peer ds now)
  | .reportAck serial => some (.reportAck serial)
  | .cancelSender reason => some (.peerCancel peer reason)
  | .cancelAckReceiver => some .cancelAck
  | _ => none

namespace Engine

/-- A change that no session notices. -/
structure Same (e e' : Engine) : Prop where
  config : e'.config = e.config
  number : e'.nextSessionNumber = e.nextSessionNumber
  send : e'.sendSessions = e.sendSessions
  recv : e'.recvSessions = e.recvSessions
  timers : e'.timerTable = e.timerTable
  closed : e'.closedRecvSessions = e.closedRecvSessions
  cancelled : e'.cancelledSessions = e.cancelledSessions

theorem handleSegment_own {e : Engine} (h : e.Owned) {source : EngineId} {segment : Segment}
    {now : Nat} (hown : segment.session.originator = e.config.engineId) :
    e.handleSegment source segment now = e ∨ ∃ trigger p n,
      segment.body.sendTrigger (e.effectiveFrom source segment.session) = some trigger ∧
      MovesSend segment.session trigger p n e (e.handleSegment source segment now) := by
  have hsound : ∀ s, e.sendSessions[segment.session]? = some s →
      s.Sound segment.session e.config.maxBlockSize.toNat := fun s hs =>
    (h.send _ s hs).2
  cases hbody : segment.body with
  | report rs =>
    obtain ⟨p, n, hmoves⟩ := @movesSend_handleIncomingReport segment.session e _ rs now hsound
    exact .inr ⟨_, p, n, rfl, by simpa [handleSegment, hbody, hown] using hmoves⟩
  | cancelReceiver reason =>
    obtain ⟨p, n, hmoves⟩ := movesSend_handleIncomingCancel e
      (e.effectiveFrom source segment.session) reason (h.recv_none hown)
    exact .inr ⟨_, p, n, rfl, by simpa [handleSegment, hbody, hown] using hmoves⟩
  | cancelAckSender =>
    obtain ⟨p, n, hmoves⟩ := @movesSend_handleIncomingCancelAck segment.session e
    exact .inr ⟨_, p, n, rfl, by simpa [handleSegment, hbody, hown] using hmoves⟩
  | data | reportAck | cancelSender | cancelAckReceiver =>
    exact .inl (by simp [handleSegment, hbody, hown])

theorem handleSegment_foreign {e : Engine} (h : e.Owned) {source : EngineId} {segment : Segment}
    {now : Nat} (hforeign : segment.session.originator ≠ e.config.engineId) :
    e.handleSegment source segment now = e ∨ ∃ trigger p n,
      segment.body.recvTrigger segment.session.originator now = some trigger ∧
      MovesRecv segment.session trigger p n e (e.handleSegment source segment now) := by
  have heff : e.effectiveFrom source segment.session = segment.session.originator := by
    simp [effectiveFrom, hforeign]
  cases hbody : segment.body with
  | data ds =>
    obtain ⟨p, n, hmoves⟩ := @movesRecv_handleIncomingData segment.session e
      segment.session.originator ds now
    exact .inr ⟨_, p, n, rfl, by simpa [handleSegment, hbody, hforeign, heff] using hmoves⟩
  | reportAck serial =>
    obtain ⟨p, n, hmoves⟩ := @movesRecv_handleIncomingReportAck segment.session e serial now
    exact .inr ⟨_, p, n, rfl, by simpa [handleSegment, hbody, hforeign] using hmoves⟩
  | cancelSender reason =>
    obtain ⟨p, n, hmoves⟩ := movesRecv_handleIncomingCancel e segment.session.originator reason
      (h.send_none hforeign)
    exact .inr ⟨_, p, n, rfl, by simpa [handleSegment, hbody, hforeign, heff] using hmoves⟩
  | cancelAckReceiver =>
    obtain ⟨p, n, hmoves⟩ := @movesRecv_handleIncomingCancelAck segment.session e
    exact .inr ⟨_, p, n, rfl, by simpa [handleSegment, hbody, hforeign] using hmoves⟩
  | report | cancelReceiver | cancelAckSender =>
    exact .inl (by simp [handleSegment, hbody, hforeign])

theorem handleExpired_own {e : Engine} (h : e.Owned) {key : TimerKey} (now : Nat)
    (hown : key.session.originator = e.config.engineId) :
    ∃ p n, MovesSend key.session (.expired key.kind now) p n e (e.handleExpired now key) := by
  have hrecv := h.recv_none hown
  obtain ⟨sid, kind⟩ := key
  simp only at hrecv
  cases kind with
  | checkpoint serial => exact movesSend_handleCpTimeout e serial now
  | report serial =>
    simp only [handleExpired, handleRsTimeout, hrecv]
    exact ⟨_, _, movesSend_idle e (fun s _ => id) now⟩
  | cancel isSender =>
    cases isSender with
    | true => exact movesSend_handleCancelTimeout e now
    | false =>
      simp only [handleExpired, handleCancelTimeout, hrecv, Bool.false_eq_true, if_false]
      exact ⟨_, _, movesSend_idle e (fun s _ => by simp [SendSession.Expects]) now⟩
  | inactivity isSender =>
    cases isSender with
    | true => exact movesSend_handleInactivityTimeout e now
    | false =>
      simp only [handleExpired, handleInactivityTimeout, hrecv, Bool.false_eq_true, if_false]
      exact ⟨_, _, movesSend_idle e (fun s _ => by simp [SendSession.Expects]) now⟩

theorem handleExpired_foreign {e : Engine} (h : e.Owned) {key : TimerKey} (now : Nat)
    (hforeign : key.session.originator ≠ e.config.engineId) :
    ∃ p n, MovesRecv key.session (.expired key.kind now) p n e (e.handleExpired now key) := by
  have hsend := h.send_none hforeign
  obtain ⟨sid, kind⟩ := key
  simp only at hsend
  cases kind with
  | checkpoint serial =>
    simp only [handleExpired, handleCpTimeout, hsend]
    exact ⟨_, _, movesRecv_idle e (fun s _ => id) now⟩
  | report serial => exact movesRecv_handleRsTimeout e serial now
  | cancel isSender =>
    cases isSender with
    | true =>
      simp only [handleExpired, handleCancelTimeout, hsend, if_true]
      exact ⟨_, _, movesRecv_idle e (fun s _ => by simp [RecvSession.Expects]) now⟩
    | false => exact movesRecv_handleCancelTimeout e now
  | inactivity isSender =>
    cases isSender with
    | true =>
      simp only [handleExpired, handleInactivityTimeout, hsend, if_true]
      exact ⟨_, _, movesRecv_idle e (fun s _ => by simp [RecvSession.Expects]) now⟩
    | false => exact movesRecv_handleInactivityTimeout e now

end Engine

theorem SendMove.notices_session {config : EngineConfig} {sid : SessionId} {trigger : SendTrigger}
    {v v' : SendView} {p : List Push} {n : List Notice} (h : SendMove config sid trigger v p n v') :
    ∀ x ∈ n, x.session = sid := by
  cases h <;> simp [Notice.session]

theorem RecvSession.deliveryNotices_session {s : RecvSession} {sid : SessionId} {source : EngineId} :
    ∀ x ∈ s.deliveryNotices sid source, x.session = sid := by
  unfold deliveryNotices
  split <;> simp [Notice.session]

theorem RecvMove.notices_session {config : EngineConfig} {sid : SessionId} {trigger : RecvTrigger}
    {v v' : RecvView} {p : List Push} {n : List Notice} (h : RecvMove config sid trigger v p n v') :
    ∀ x ∈ n, x.session = sid := by
  cases h with
  | dataStored => exact RecvSession.deliveryNotices_session
  | dataGreen =>
    intro x hx
    rcases List.mem_cons.mp hx with rfl | hx
    · rfl
    · exact RecvSession.deliveryNotices_session x hx
  | _ => simp [Notice.session]

namespace Host

/-- The call hands `segment` to the engine. -/
def Receives (c : Call) (segment : Segment) (now : Nat) : Prop :=
  ∃ source bytes, c = .segment source bytes now ∧ Segment.parse bytes = .ok (segment, bytes.length)

/-- The segment that a call hands to the engine. -/
def received (c : Call) : Option Segment :=
  match c with
  | .segment _ bytes _ =>
    match Segment.parse bytes with
    | .ok (segment, consumed) => if consumed = bytes.length then some segment else none
    | .error _ => none
  | _ => none

theorem Receives.received_eq {c : Call} {segment : Segment} {now : Nat}
    (h : Receives c segment now) : received c = some segment := by
  obtain ⟨source, bytes, rfl, hparse⟩ := h
  simp [received, hparse]

theorem exists_receives {c : Call} {segment : Segment} (h : received c = some segment) :
    ∃ now, Receives c segment now := by
  unfold received at h
  split at h
  · next source bytes now =>
    split at h
    · next hparse =>
      split at h
      · next hall =>
        cases h
        exact ⟨now, source, bytes, rfl, hall ▸ hparse⟩
      · cases h
    · cases h
  · cases h

/-- Why a send session moves in a call, and the timers left to fire afterwards. -/
def SendCause (h : Host) (c : Call) (sid : SessionId) (h' : Host) : SendTrigger → Prop
  | .request peer t => h.pending = [] ∧ h'.pending = [] ∧ sid = h.engine.nextSessionId ∧
      ∃ now, c = .request peer t.clientService t.block t.redLen now
  | .expired kind now => c = .fire ∧ now = h.tickTime ∧ h.pending = ⟨sid, kind⟩ :: h'.pending
  | trigger => h.pending = [] ∧ h'.pending = [] ∧ ∃ segment peer now, Receives c segment now ∧
      segment.session = sid ∧ segment.body.sendTrigger peer = some trigger ∧
      ∀ s, h.engine.sendSessions[sid]? = some s → peer = s.peer

/-- Why a receive session moves in a call, and the timers left to fire afterwards. -/
def RecvCause (h : Host) (c : Call) (sid : SessionId) (h' : Host) : RecvTrigger → Prop
  | .expired kind now => c = .fire ∧ now = h.tickTime ∧ h.pending = ⟨sid, kind⟩ :: h'.pending
  | trigger => h.pending = [] ∧ h'.pending = [] ∧ ∃ segment now, Receives c segment now ∧
      segment.session = sid ∧ segment.body.recvTrigger sid.originator now = some trigger

/-- The requests that a trigger adds. -/
def requested (sid : SessionId) : SendTrigger → List Request
  | .request peer t => [⟨sid, peer, t⟩]
  | _ => []

/-- Whether a trigger opens a session. -/
def opens : SendTrigger → Bool
  | .request .. => true
  | _ => false

/-- Between `h` and `h'` only session `sid` did anything. -/
structure Acts (h h' : Host) (sid : SessionId) (p : List Push) (n : List Notice) : Prop where
  config : h'.engine.config = h.engine.config
  pushed : h'.pushed = h.pushed ++ p.map (Push.wire sid)
  emitted : h'.emitted = h.emitted ++ n
  send : ∀ s, s ≠ sid → h'.engine.sendSessions[s]? = h.engine.sendSessions[s]?
  recv : ∀ s, s ≠ sid → h'.engine.recvSessions[s]? = h.engine.recvSessions[s]?
  armed : ∀ s, s ≠ sid → h'.engine.armed s = h.engine.armed s
  closed : h'.engine.closedRecvSessions = h.engine.closedRecvSessions ∨
    h'.engine.closedRecvSessions = h.engine.closedRecvSessions.record sid
  cancelled : h'.engine.cancelledSessions = h.engine.cancelledSessions ∨
    h'.engine.cancelledSessions = h.engine.cancelledSessions.record sid

theorem acts_of_engine {h : Host} {sid : SessionId} {p : List Push} {n : List Notice}
    {e : Engine} (number : UInt64)
    (hacts : Engine.Acts sid p n { h.engine with nextSessionNumber := number } e)
    {pending : List TimerKey} {requests : List Request} :
    h.Acts { h with engine := e, pending, requests } sid p n where
  config := hacts.config
  pushed := by rw [pushed, hacts.outbound, ← List.append_assoc]; rfl
  emitted := by rw [emitted, hacts.notices, ← List.append_assoc]; rfl
  send := hacts.send
  recv := hacts.recv
  armed := fun s hs => by
    ext kind
    exact not_congr (by rw [hacts.timers ⟨s, kind⟩ hs])
  closed := hacts.closed
  cancelled := hacts.cancelled

/-- What a call does. -/
inductive Steps (h : Host) (c : Call) (h' : Host) : Prop
  | same (engine : Engine.Same h.engine h'.engine) (pushed : h'.pushed = h.pushed)
      (emitted : h'.emitted = h.emitted) (pending : h'.pending = h.pending)
      (requests : h'.requests = h.requests)
  | tick {now : Nat} (hcall : c = .tick now) (hidle : h.pending = [])
      (heq : h' = h.tick now)
  | send {sid trigger p n} (hown : sid.originator = h.engine.config.engineId)
      (cause : h.SendCause c sid h' trigger) (acts : h.Acts h' sid p n)
      (move : SendMove h.engine.config sid trigger (h.engine.sendView sid) p n
        (h'.engine.sendView sid))
      (recv : h'.engine.recvSessions[sid]? = none)
      (requests : h'.requests = h.requests ++ requested sid trigger)
      (number : h'.engine.nextSessionNumber = if opens trigger then
        h.engine.numberSession.nextSessionNumber else h.engine.nextSessionNumber)
  | recv {sid trigger p n} (hforeign : sid.originator ≠ h.engine.config.engineId)
      (cause : h.RecvCause c sid h' trigger) (acts : h.Acts h' sid p n)
      (move : RecvMove h.engine.config sid trigger (h.engine.recvView sid) p n
        (h'.engine.recvView sid))
      (send : h'.engine.sendSessions[sid]? = none)
      (requests : h'.requests = h.requests)
      (number : h'.engine.nextSessionNumber = h.engine.nextSessionNumber)

theorem Steps.refl (h : Host) (c : Call) : Steps h c h :=
  .same ⟨rfl, rfl, rfl, rfl, rfl, rfl, rfl⟩ rfl rfl rfl rfl

theorem sendCause_of_receives {h h' : Host} {c : Call} {segment : Segment} {source : EngineId}
    {now : Nat} {trigger : SendTrigger} (hidle : h.pending = []) (hidle' : h'.pending = [])
    (hreceives : Receives c segment now)
    (hown : segment.session.originator = h.engine.config.engineId)
    (htrigger : segment.body.sendTrigger (h.engine.effectiveFrom source segment.session) =
      some trigger) :
    h.SendCause c segment.session h' trigger ∧ requested segment.session trigger = [] ∧
      opens trigger = false := by
  have hpeer : ∀ s, h.engine.sendSessions[segment.session]? = some s →
      h.engine.effectiveFrom source segment.session = s.peer := fun s hs => by
    simp [Engine.effectiveFrom, hown, hs]
  have hbase : h.pending = [] ∧ h'.pending = [] ∧ ∃ seg peer now, Receives c seg now ∧
      seg.session = segment.session ∧ seg.body.sendTrigger peer = some trigger ∧
      ∀ s, h.engine.sendSessions[segment.session]? = some s → peer = s.peer :=
    ⟨hidle, hidle', segment, _, now, hreceives, rfl, htrigger, hpeer⟩
  cases hbody : segment.body <;> rw [hbody] at htrigger <;> cases htrigger <;>
    exact ⟨hbase, rfl, rfl⟩

theorem recvCause_of_receives {h h' : Host} {c : Call} {segment : Segment} {now : Nat}
    {trigger : RecvTrigger} (hidle : h.pending = []) (hidle' : h'.pending = [])
    (hreceives : Receives c segment now)
    (htrigger : segment.body.recvTrigger segment.session.originator now = some trigger) :
    h.RecvCause c segment.session h' trigger := by
  have hbase : h.pending = [] ∧ h'.pending = [] ∧ ∃ seg now, Receives c seg now ∧
      seg.session = segment.session ∧
      seg.body.recvTrigger segment.session.originator now = some trigger :=
    ⟨hidle, hidle', segment, now, hreceives, rfl, htrigger⟩
  cases hbody : segment.body <;> rw [hbody] at htrigger <;> cases htrigger <;> exact hbase

variable {h : Host} (hown : h.engine.Owned)
include hown

theorem steps_fire : Steps h .fire h.fire := by
  unfold fire
  cases hpending : h.pending with
  | nil => exact .refl h .fire
  | cons key rest =>
    simp only
    by_cases hkey : key.session.originator = h.engine.config.engineId
    · obtain ⟨p, n, hmoves⟩ := Engine.handleExpired_own hown h.tickTime hkey
      have hcause : h.SendCause .fire key.session
          { h with engine := h.engine.handleExpired h.tickTime key, pending := rest }
          (.expired key.kind h.tickTime) := ⟨rfl, rfl, hpending⟩
      exact .send hkey hcause
        (acts_of_engine _ hmoves.acts) hmoves.move (hmoves.recv (hown.recv_none hkey)) (by simp [requested])
        hmoves.acts.number
    · obtain ⟨p, n, hmoves⟩ := Engine.handleExpired_foreign hown h.tickTime hkey
      have hcause : h.RecvCause .fire key.session
          { h with engine := h.engine.handleExpired h.tickTime key, pending := rest }
          (.expired key.kind h.tickTime) := ⟨rfl, rfl, hpending⟩
      exact .recv hkey hcause
        (acts_of_engine _ hmoves.acts) hmoves.move (hmoves.send (hown.send_none hkey)) rfl
        hmoves.acts.number

theorem steps_request (hidle : h.pending = []) (peer : EngineId) (clientService : UInt64)
    (block : Bytes) (redLen now : Nat) :
    Steps h (.request peer clientService block redLen now)
      (h.request peer clientService block redLen now) := by
  unfold request
  cases hreq : h.engine.requestTransmission peer clientService block redLen now with
  | error err => exact .refl h _
  | ok out =>
    obtain ⟨sid, e⟩ := out
    obtain ⟨rfl, -, p, n, hmoves⟩ := Engine.movesSend_requestTransmission hreq
    have hcause : h.SendCause (.request peer clientService block redLen now) h.engine.nextSessionId
        { h with engine := e, requests := h.requests ++
          [⟨h.engine.nextSessionId, peer, ⟨clientService, block, redLen⟩⟩] }
        (.request peer ⟨clientService, block, redLen⟩) := ⟨hidle, hidle, rfl, now, rfl⟩
    exact .send rfl hcause (acts_of_engine _ hmoves.acts) hmoves.move
      (hmoves.recv (hown.recv_none rfl)) rfl hmoves.acts.number

theorem steps_receive (hidle : h.pending = []) (source : EngineId) (bytes : Bytes) (now : Nat) :
    Steps h (.segment source bytes now) (h.receive source bytes now) := by
  unfold receive Engine.handleIncomingSegment
  cases hparse : Segment.parse bytes with
  | error err => exact .refl h _
  | ok out =>
    obtain ⟨segment, consumed⟩ := out
    simp only
    by_cases hlen : consumed = bytes.length
    · subst hlen
      simp only [ne_eq, not_true_eq_false, if_false]
      have hreceives : Receives (.segment source bytes now) segment now :=
        ⟨source, bytes, rfl, hparse⟩
      by_cases hseg : segment.session.originator = h.engine.config.engineId
      · rcases Engine.handleSegment_own hown hseg with heq | ⟨trigger, p, n, htrigger, hmoves⟩
        · rw [heq]
          exact .refl h _
        · obtain ⟨hcause, hrequested, hopens⟩ := sendCause_of_receives hidle hidle hreceives hseg
            htrigger
          exact .send hseg hcause (acts_of_engine _ hmoves.acts) hmoves.move
            (hmoves.recv (hown.recv_none hseg)) (by simp [hrequested])
            (by rw [hopens]; exact hmoves.acts.number)
      · rcases Engine.handleSegment_foreign hown hseg with heq | ⟨trigger, p, n, htrigger, hmoves⟩
        · rw [heq]
          exact .refl h _
        · exact .recv hseg (recvCause_of_receives hidle hidle hreceives htrigger)
            (acts_of_engine _ hmoves.acts) hmoves.move (hmoves.send (hown.send_none hseg)) rfl
            hmoves.acts.number
    · simp only [ne_eq, hlen, not_false_eq_true, if_true]
      exact .refl h _

theorem steps_step (c : Call) : Steps h c (h.step c) := by
  by_cases hidle : h.pending = []
  · rw [step_idle hidle]
    cases c with
    | request peer clientService block redLen now =>
      exact steps_request hown hidle peer clientService block redLen now
    | segment source bytes now =>
      exact steps_receive hown hidle source bytes now
    | tick now =>
      exact .tick rfl hidle rfl
    | fire => exact steps_fire hown
    | pollOutput =>
      exact .same ⟨rfl, rfl, rfl, rfl, rfl, rfl, rfl⟩
        (by cases ho : h.engine.outbound <;> simp [call, pollOutput, pushed, Engine.pollOutput, ho])
        rfl rfl rfl
    | pollNotice =>
      exact .same ⟨rfl, rfl, rfl, rfl, rfl, rfl, rfl⟩ rfl
        (by cases ho : h.engine.notices <;> simp [call, pollNotice, emitted, Engine.pollNotice, ho])
        rfl rfl
    | setPeerTiming peer rttMicros ackMarginMicros =>
      exact .same ⟨rfl, rfl, rfl, rfl, rfl, rfl, rfl⟩ rfl rfl rfl rfl
    | updatePeerRttSample peer sampleRttMicros =>
      exact .same ⟨rfl, rfl, rfl, rfl, rfl, rfl, rfl⟩ rfl rfl rfl rfl
  · by_cases hc : c = .fire
    · subst hc
      rw [step_fire]
      exact steps_fire hown
    · rw [step, if_neg (by simp [hidle, hc])]
      exact .refl h c

theorem owned_step (c : Call) : (h.step c).engine.Owned := by
  cases steps_step hown c with
  | same hsame =>
    refine ⟨fun sid s hs => ?_, fun sid s hs => ?_⟩
    · rw [hsame.send] at hs
      rw [hsame.config]
      exact hown.send sid s hs
    · rw [hsame.recv] at hs
      rw [hsame.config]
      exact hown.recv sid s hs
  | tick _ _ heq =>
    rw [heq]
    exact ⟨hown.send, hown.recv⟩
  | @send sid trigger p n hsid _ acts move recv =>
    refine ⟨fun t s hs => ?_, fun t s hs => ?_⟩
    · rw [acts.config]
      by_cases ht : t = sid
      · subst ht
        exact ⟨hsid, move.sound (fun s hs => (hown.send t s hs).2) s hs⟩
      · rw [acts.send t ht] at hs
        exact hown.send t s hs
    · rw [acts.config]
      by_cases ht : t = sid
      · subst ht
        rw [recv] at hs
        cases hs
      · rw [acts.recv t ht] at hs
        exact hown.recv t s hs
  | @recv sid trigger p n hsid _ acts move send =>
    refine ⟨fun t s hs => ?_, fun t s hs => ?_⟩
    · rw [acts.config]
      by_cases ht : t = sid
      · subst ht
        rw [send] at hs
        cases hs
      · rw [acts.send t ht] at hs
        exact hown.send t s hs
    · rw [acts.config]
      by_cases ht : t = sid
      · subst ht
        exact hsid
      · rw [acts.recv t ht] at hs
        exact hown.recv t s hs

omit hown in
theorem owned_run (hown : h.engine.Owned) (calls : List Call) : (h.run calls).engine.Owned := by
  induction calls generalizing h with
  | nil => exact hown
  | cons c calls ih => exact ih (owned_step hown c)

theorem config_step (c : Call) : (h.step c).engine.config = h.engine.config := by
  cases steps_step hown c with
  | same hsame => exact hsame.config
  | tick _ _ heq => rw [heq]; rfl
  | send _ _ acts => exact acts.config
  | recv _ _ acts => exact acts.config

omit hown in
theorem config_run (hown : h.engine.Owned) (calls : List Call) :
    (h.run calls).engine.config = h.engine.config := by
  induction calls generalizing h with
  | nil => rfl
  | cons c calls ih => exact (ih (owned_step hown c)).trans (config_step hown c)

omit hown

/-- Segments of sessions other than `sid`. -/
def Others (sid : SessionId) (segments : List (EngineId × Bytes)) : Prop :=
  ∀ x ∈ segments, ∃ t, t ≠ sid ∧ ∃ p, x = Push.wire t p

theorem others_wire {sid t : SessionId} (ht : t ≠ sid) (p : List Push) :
    Others sid (p.map (Push.wire t)) := by
  intro x hx
  obtain ⟨q, -, rfl⟩ := List.mem_map.mp hx
  exact ⟨t, ht, q, rfl⟩

/-- What a call means for a session of this engine. -/
inductive SendChange (h : Host) (c : Call) (sid : SessionId) (h' : Host) : Prop
  | moved {trigger p n} (cause : h.SendCause c sid h' trigger)
      (move : SendMove h.engine.config sid trigger (h.engine.sendView sid) p n
        (h'.engine.sendView sid))
      (pushed : h'.pushed = h.pushed ++ p.map (Push.wire sid))
      (emitted : h'.emitted = h.emitted ++ n)
      (requests : h'.requests = h.requests ++ requested sid trigger)
  | tick (idle : h.pending = [])
      (session : h'.engine.sendSessions[sid]? = h.engine.sendSessions[sid]?)
      (armed : ∀ kind, kind ∈ h.engine.armed sid ↔
        kind ∈ h'.engine.armed sid ∨ ⟨sid, kind⟩ ∈ h'.pending)
      (pushed : h'.pushed = h.pushed) (emitted : h'.emitted = h.emitted)
      (requests : h'.requests = h.requests)
  | other (view : h'.engine.sendView sid = h.engine.sendView sid)
      (pending : ∀ kind, ⟨sid, kind⟩ ∈ h'.pending ↔ ⟨sid, kind⟩ ∈ h.pending)
      (pushed : ∃ q, h'.pushed = h.pushed ++ q ∧ Others sid q)
      (emitted : ∃ n, h'.emitted = h.emitted ++ n ∧ ∀ x ∈ n, x.session ≠ sid)
      (requests : ∃ rs, h'.requests = h.requests ++ rs ∧ ∀ r ∈ rs, r.session ≠ sid)

/-- What a call means for a session of another engine. -/
inductive RecvChange (h : Host) (c : Call) (sid : SessionId) (h' : Host) : Prop
  | moved {trigger p n} (cause : h.RecvCause c sid h' trigger)
      (move : RecvMove h.engine.config sid trigger (h.engine.recvView sid) p n
        (h'.engine.recvView sid))
      (pushed : h'.pushed = h.pushed ++ p.map (Push.wire sid))
      (emitted : h'.emitted = h.emitted ++ n)
  | tick (idle : h.pending = [])
      (session : h'.engine.recvSessions[sid]? = h.engine.recvSessions[sid]?)
      (armed : ∀ kind, kind ∈ h.engine.armed sid ↔
        kind ∈ h'.engine.armed sid ∨ ⟨sid, kind⟩ ∈ h'.pending)
      (closed : h'.engine.closedRecvSessions = h.engine.closedRecvSessions)
      (cancelled : h'.engine.cancelledSessions = h.engine.cancelledSessions)
      (pushed : h'.pushed = h.pushed) (emitted : h'.emitted = h.emitted)
  | other (session : h'.engine.recvSessions[sid]? = h.engine.recvSessions[sid]?)
      (armed : h'.engine.armed sid = h.engine.armed sid)
      (closed : sid ∈ h'.engine.closedRecvSessions → sid ∈ h.engine.closedRecvSessions)
      (cancelled : sid ∈ h'.engine.cancelledSessions → sid ∈ h.engine.cancelledSessions)
      (pending : ∀ kind, ⟨sid, kind⟩ ∈ h'.pending ↔ ⟨sid, kind⟩ ∈ h.pending)
      (pushed : ∃ q, h'.pushed = h.pushed ++ q ∧ Others sid q)
      (emitted : ∃ n, h'.emitted = h.emitted ++ n ∧ ∀ x ∈ n, x.session ≠ sid)

theorem SendCause.pending_iff {h h' : Host} {c : Call} {t sid : SessionId} {trigger : SendTrigger}
    (hcause : h.SendCause c t h' trigger) (ht : t ≠ sid) (kind : TimerKind) :
    ⟨sid, kind⟩ ∈ h'.pending ↔ (⟨sid, kind⟩ : TimerKey) ∈ h.pending := by
  cases trigger with
  | expired k now =>
    rw [hcause.2.2, List.mem_cons]
    simp [Ne.symm ht]
  | _ => rw [hcause.1, hcause.2.1]

theorem RecvCause.pending_iff {h h' : Host} {c : Call} {t sid : SessionId} {trigger : RecvTrigger}
    (hcause : h.RecvCause c t h' trigger) (ht : t ≠ sid) (kind : TimerKind) :
    ⟨sid, kind⟩ ∈ h'.pending ↔ (⟨sid, kind⟩ : TimerKey) ∈ h.pending := by
  cases trigger with
  | expired k now =>
    rw [hcause.2.2, List.mem_cons]
    simp [Ne.symm ht]
  | _ => rw [hcause.1, hcause.2.1]

theorem armed_eq {e e' : Engine} (h : e'.timerTable = e.timerTable) (sid : SessionId) :
    e'.armed sid = e.armed sid := by
  rw [Engine.armed, Engine.armed, h]

theorem Acts.sendView_eq {h h' : Host} {t sid : SessionId} {p : List Push} {n : List Notice}
    (hacts : h.Acts h' t p n) (ht : t ≠ sid) :
    h'.engine.sendView sid = h.engine.sendView sid := by
  rw [Engine.sendView, Engine.sendView, hacts.send sid ht.symm, hacts.armed sid ht.symm]

include hown

theorem sendChange (c : Call) {sid : SessionId} (hsid : sid.originator = h.engine.config.engineId) :
    SendChange h c sid (h.step c) := by
  cases steps_step hown c with
  | same hsame pushed emitted pending requests =>
    refine .other ?_ (by simp [pending]) ⟨[], by simp [pushed], by simp [Others]⟩
      ⟨[], by simp [emitted], by simp⟩ ⟨[], by simp [requests], by simp⟩
    rw [Engine.sendView, Engine.sendView, hsame.send, armed_eq hsame.timers]
  | @tick now _ hidle heq =>
    rw [heq]
    exact .tick hidle rfl (h.engine.armed_expire now sid) rfl rfl rfl
  | @send t trigger p n _ cause acts move _ requests =>
    by_cases ht : t = sid
    · subst ht
      exact .moved cause move acts.pushed acts.emitted requests
    · refine .other (acts.sendView_eq ht) (cause.pending_iff ht) ⟨_, acts.pushed, others_wire ht p⟩
        ⟨n, acts.emitted, fun x hx => move.notices_session x hx ▸ ht⟩ ⟨_, requests, ?_⟩
      cases trigger <;> simp [requested, ht]
  | @recv t trigger p n hforeign cause acts move _ requests =>
    have ht : t ≠ sid := fun heq => hforeign (heq ▸ hsid)
    exact .other (acts.sendView_eq ht) (cause.pending_iff ht) ⟨_, acts.pushed, others_wire ht p⟩
      ⟨n, acts.emitted, fun x hx => move.notices_session x hx ▸ ht⟩ ⟨[], by simp [requests], by simp⟩

theorem recvChange (c : Call) {sid : SessionId}
    (hsid : sid.originator ≠ h.engine.config.engineId) : RecvChange h c sid (h.step c) := by
  have hcache : ∀ {t : SessionId} {cache cache' : RecentSessions}, t ≠ sid →
      (cache' = cache ∨ cache' = cache.record t) → sid ∈ cache' → sid ∈ cache := by
    rintro t cache cache' ht (rfl | rfl) hmem
    · exact hmem
    · exact (RecentSet.mem_of_mem_record hmem).resolve_left ht.symm
  cases steps_step hown c with
  | same hsame pushed emitted pending requests =>
    exact .other (by rw [hsame.recv]) (armed_eq hsame.timers sid) (by rw [hsame.closed]; exact id)
      (by rw [hsame.cancelled]; exact id) (by simp [pending]) ⟨[], by simp [pushed], by simp [Others]⟩
      ⟨[], by simp [emitted], by simp⟩
  | @tick now _ hidle heq =>
    rw [heq]
    exact .tick hidle rfl (h.engine.armed_expire now sid) rfl rfl rfl rfl
  | @send t trigger p n hown' cause acts move =>
    have ht : t ≠ sid := fun heq => hsid (heq ▸ hown')
    exact .other (acts.recv sid ht.symm) (acts.armed sid ht.symm) (hcache ht acts.closed)
      (hcache ht acts.cancelled) (cause.pending_iff ht) ⟨_, acts.pushed, others_wire ht p⟩
      ⟨n, acts.emitted, fun x hx => move.notices_session x hx ▸ ht⟩
  | @recv t trigger p n _ cause acts move =>
    by_cases ht : t = sid
    · subst ht
      exact .moved cause move acts.pushed acts.emitted
    · exact .other (acts.recv sid (Ne.symm ht)) (acts.armed sid (Ne.symm ht)) (hcache ht acts.closed)
        (hcache ht acts.cancelled) (cause.pending_iff ht) ⟨_, acts.pushed, others_wire ht p⟩
        ⟨n, acts.emitted, fun x hx => move.notices_session x hx ▸ ht⟩

end Host

end HdyUtils.Ltp
