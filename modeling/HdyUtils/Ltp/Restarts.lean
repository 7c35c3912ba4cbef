import HdyUtils.Ltp.Completion

/-! A sender that is replaced by a new engine of the same configuration, which numbers its sessions from
the start again, while its receivers keep what they have.  Where of all the requests that have had one
session number the receivers hear of one only, and its sender is told of that one only, no block is
mixed with another and none is completed for another. -/

namespace HdyUtils.Ltp

open Trace

instance (ds : DataSegment) (t : Transfer) : Decidable (ds.Cuts t) :=
  decidable_of_iff (ds.clientService = t.clientService ∧
      ds.data = (t.block.drop ds.offset).take ds.data.length ∧
      ds.offset + ds.data.length ≤ t.block.length ∧
      (ds.kind.isRed → 0 < ds.data.length ∧ ds.offset + ds.data.length ≤ t.redLen) ∧
      (ds.kind.isRed = false → t.redLen ≤ ds.offset) ∧
      (ds.kind.isRed → (ds.kind.isEorp ↔ ds.offset + ds.data.length = t.redLen)) ∧
      (ds.kind.isEob ↔ ds.offset + ds.data.length = t.block.length))
    ⟨fun ⟨h₁, h₂, h₃, h₄, h₅, h₆, h₇⟩ => ⟨h₁, h₂, h₃, h₄, h₅, h₆, h₇⟩,
      fun ⟨h₁, h₂, h₃, h₄, h₅, h₆, h₇⟩ => ⟨h₁, h₂, h₃, h₄, h₅, h₆, h₇⟩⟩

/-- The session transmits the request. -/
def SendSession.Serves (s : SendSession) (r : Request) : Prop :=
  s.peer = r.peer ∧ s.transfer = r.transfer

instance (s : SendSession) (r : Request) : Decidable (s.Serves r) :=
  inferInstanceAs (Decidable (_ ∧ _))

namespace World

variable {ι : Type} {w w' : World ι} {i k : ι} {heard : SessionId → Request} {r r' : Request}
  {sid : SessionId} {c : Call}

/-! ### What the receivers hear of -/

/-- A request to host `k`, and the one that is heard of under its session if it is of host `i`. -/
def Heard (heard : SessionId → Request) (i : ι) (w : World ι) (k : ι) (r : Request) : Prop :=
  w.For k r ∧ (r.session.originator = (w i).engine.config.engineId → heard r.session = r)

/-- Data that another host is handed under the session is cut from request `r` of host `i`, and a report that
`i` is handed finds no session open but that of `r`. -/
def Traces (w : World ι) (i k : ι) (r : Request) (sid : SessionId) : SegmentBody → Prop
  | .data ds => k ≠ i → r.session = sid ∧ w.For k r ∧ ds.Cuts r.transfer
  | .report _ => k = i → ∀ s ∈ (w i).engine.sendSessions[sid]?, r.session = sid ∧ s.Serves r
  | .reportAck _ | .cancelSender _ | .cancelAckSender | .cancelReceiver _ | .cancelAckReceiver => True

/-- Of the requests of host `i` under one session the others are handed data of the one in `heard` only, and
`i` is handed reports only while it has no other of them open.  No other host restarts. -/
def Traced (heard : SessionId → Request) (i : ι) (w : World ι) : ι × Event → Prop
  | (k, .restart) => k = i
  | (k, .call c) => ∀ seg ∈ Host.received c,
      seg.session.originator = (w i).engine.config.engineId →
        w.Traces i k (heard seg.session) seg.session seg.body

section Decide

variable [Fintype ι] [DecidableEq ι]

instance (w : World ι) (i : ι) (r : Request) : Decidable (w.For i r) :=
  inferInstanceAs (Decidable (_ ∧ ∃ j, r ∈ (w j).requests))

instance (w : World ι) (i k : ι) (r : Request) (sid : SessionId) :
    (body : SegmentBody) → Decidable (w.Traces i k r sid body)
  | .data ds => inferInstanceAs (Decidable (k ≠ i → r.session = sid ∧ w.For k r ∧ ds.Cuts r.transfer))
  | .report _ => inferInstanceAs (Decidable (k = i → ∀ s ∈ (w i).engine.sendSessions[sid]?,
      r.session = sid ∧ s.Serves r))
  | .reportAck _ | .cancelSender _ | .cancelAckSender | .cancelReceiver _ | .cancelAckReceiver =>
    inferInstanceAs (Decidable True)

instance (heard : SessionId → Request) (i : ι) (w : World ι) :
    (e : ι × Event) → Decidable (w.Traced heard i e)
  | (k, .restart) => inferInstanceAs (Decidable (k = i))
  | (_, .call c) => inferInstanceAs (Decidable (∀ seg ∈ Host.received c, _ → _))

end Decide

/-! ### What is kept -/

/-- No two requests of a host other than `i` have the same session. -/
def OthersDistinct (i : ι) (w : World ι) : Prop :=
  ∀ j, j ≠ i → ((w j).requests.map Request.session).Nodup

theorem Heard.unique (hw : w.FaithfulTo (w.Heard heard i)) (hdistinct : w.OthersDistinct i)
    (hr : w.Heard heard i k r) (hr' : w.Heard heard i k r') (hsid : r.session = r'.session) :
    r = r' := by
  obtain ⟨⟨-, j, hj⟩, hheard⟩ := hr
  obtain ⟨⟨-, j', hj'⟩, hheard'⟩ := hr'
  by_cases hown : r.session.originator = (w i).engine.config.engineId
  · rw [← hheard hown, ← hheard' (hsid ▸ hown), hsid]
  · have hjj' : j = j' := hw.ids ((hw.own j r hj).symm.trans (hsid ▸ hw.own j' r' hj'))
    subst hjj'
    have hji : j ≠ i := by
      rintro rfl
      exact hown (hw.own j r hj)
    exact List.inj_on_of_nodup_map (hdistinct j hji) hj hj' hsid

theorem Heard.valid (hw : w.FaithfulTo (w.Heard heard i)) (hr : w.Heard heard i k r) :
    r.transfer.Valid := by
  obtain ⟨⟨-, j, hj⟩, -⟩ := hr
  exact hw.valid hj

/-- The data that a host is handed is cut from what is heard of. -/
theorem Traced.cut [DecidableEq ι] (hw : w.FaithfulTo (w.Heard heard i))
    (htraced : w.Traced heard i (k, .call c)) (henabled : w.Enabled false k c)
    (hforeign : sid.originator ≠ (w k).engine.config.engineId) :
    Host.Cut (w.Heard heard i k) sid c := by
  rintro seg now ds hreceives rfl hbody
  by_cases hown : seg.session.originator = (w i).engine.config.engineId
  · have htraces := htraced seg hreceives.received_eq hown
    rw [hbody] at htraces
    have hki : k ≠ i := by
      rintro rfl
      exact hforeign hown
    obtain ⟨hsid, hfor, hcuts⟩ := htraces hki
    exact ⟨heard seg.session, ⟨hfor, fun _ => by rw [hsid]⟩, hsid, hcuts⟩
  · obtain ⟨source, bytes, rfl, hparse⟩ := hreceives
    obtain ⟨j, -, r, hr, hrsid, hcuts, hpeer⟩ := hw.brought henabled hparse hbody
    refine ⟨r, ⟨⟨hpeer.resolve_left (by simp), j, hr⟩, fun horiginator => ?_⟩, hrsid, hcuts⟩
    exact absurd (hrsid ▸ horiginator) hown

/-- Where no two requests of host `i` share a session, all of them may be heard of. -/
theorem traced_of_distinct [DecidableEq ι] (hw : w.FaithfulTo (w.Heard heard i))
    (hheard : ∀ r ∈ (w i).requests, heard r.session = r) (henabled : w.Enabled false k c) :
    w.Traced heard i (k, .call c) := by
  intro seg hseg hown
  cases hbody : seg.body with
  | data ds =>
    intro hki
    obtain ⟨now, source, bytes, rfl, hparse⟩ := Host.exists_receives hseg
    obtain ⟨j, -, r, hr, hrsid, hcuts, hpeer⟩ := hw.brought henabled hparse hbody
    have hji : j = i := hw.ids ((hw.own j r hr).symm.trans (hrsid ▸ hown))
    subst hji
    rw [← hrsid, hheard r hr]
    exact ⟨rfl, ⟨hpeer.resolve_left (by simp), j, hr⟩, hcuts⟩
  | report rs =>
    intro _ s hs
    obtain ⟨r, hr, hrsid, hpeer, htransfer⟩ := (hw.transmits i seg.session hown).session s hs
    rw [← hrsid, hheard r hr]
    exact ⟨rfl, hpeer.symm, htransfer.symm⟩
  | reportAck | cancelSender | cancelAckSender | cancelReceiver | cancelAckReceiver => trivial

theorem Heard.update_host [DecidableEq ι] {h : Host}
    (hconfig : h.engine.config = (w k).engine.config) (hrequests : (w k).requests <+: h.requests)
    (j : ι) (r : Request) (hr : w.Heard heard i j r) :
    Heard heard i (Function.update w k h) j r := by
  refine ⟨hr.1.update_host hconfig hrequests, fun horiginator => hr.2 ?_⟩
  rwa [config_update_host hconfig] at horiginator

/-- Of the requests of host `i` each that is heard of was delivered, or received only in part. -/
structure Tracked (heard : SessionId → Request) (i : ι) (cancelled : ι → Finset SessionId)
    (w : World ι) : Prop where
  faithful : w.FaithfulTo (w.Heard heard i)
  numbered : ∀ j, j ≠ i → (w j).Numbered
  cancelled : ∀ j, j ≠ i → ∀ t ∈ (w j).engine.cancelledSessions, t ∈ cancelled j
  outcome : ∀ r, heard r.session = r → r.session.originator = (w i).engine.config.engineId →
    r.transfer.Valid → 0 < r.transfer.redLen → w.Delivers i r ∨ ∃ G, Short i r G w

theorem tracked_new {config : ι → EngineConfig} {cancelled : ι → Finset SessionId}
    (hids : Function.Injective fun i => (config i).engineId) :
    Tracked heard i cancelled (new config) where
  faithful := FaithfulTo.new hids
  numbered := fun j _ => Host.numbered_new (config j)
  cancelled := fun _ _ t ht => absurd ht (RecentSet.not_mem_empty t)
  outcome := fun _ _ _ _ hpos => .inr ⟨∅, short_new hpos⟩

/-- A sender with a new engine has no claims. -/
theorem Short.restart [DecidableEq ι] {G : Set Nat} (h : Short i r G w) :
    Short i r G (Function.update w i (w i).restart) where
  gap := h.gap
  peer := fun j hj => by
    rw [Function.update_of_ne hj]
    exact h.peer j hj
  reports := fun j hj => by
    rw [Function.update_of_ne hj]
    exact h.reports j hj
  claims := by simp [Function.update_self, Host.restart, Host.new, Engine.new]

/-- A report finds the session, if it is open, with the request that is heard of. -/
theorem Traced.serves (htraced : w.Traced heard i (i, .call c)) {seg : Segment} {now : Nat}
    {rs : ReportSegment} (hreceives : Host.Receives c seg now) (hbody : seg.body = .report rs)
    (hown : seg.session.originator = (w i).engine.config.engineId) {s : SendSession}
    (hs : (w i).engine.sendSessions[seg.session]? = some s) :
    (heard seg.session).session = seg.session ∧ s.Serves (heard seg.session) := by
  have htraces := htraced seg hreceives.received_eq hown
  rw [hbody] at htraces
  exact htraces rfl s hs

section Step

variable [DecidableEq ι] {cancelled : ι → Finset SessionId}

theorem Tracked.restart (h : w.Tracked heard i cancelled) :
    Tracked heard i cancelled (Function.update w i (w i).restart) where
  faithful := h.faithful.restart (Heard.update_host rfl (List.prefix_refl _))
  numbered := fun j hj => by
    rw [Function.update_of_ne hj]
    exact h.numbered j hj
  cancelled := fun j hj => by
    rw [Function.update_of_ne hj]
    exact h.cancelled j hj
  outcome := fun r hheard hsid hvalid hpos => by
    have hconfig : (w i).restart.engine.config = (w i).engine.config := rfl
    rw [config_update_host hconfig] at hsid
    refine (h.outcome r hheard hsid hvalid hpos).imp ?_ ?_
    · exact fun hdelivers => hdelivers.update rfl fun hne => absurd rfl hne
    · exact fun ⟨G, hshort⟩ => ⟨G, hshort.restart⟩

/-- The sender is called: what was received of its requests stays as it is. -/
theorem Tracked.sender {G : Set Nat} (h : w.Tracked heard i cancelled)
    (henabled : w.Enabled false i c) (htraced : w.Traced heard i (i, .call c))
    (hheard : heard r.session = r) (hown : r.session.originator = (w i).engine.config.engineId)
    (hvalid : r.transfer.Valid) (hshort : Short i r G w) :
    Short i r G (Function.update w i ((w i).step c)) ∧
      ∃ n, ((w i).step c).emitted = (w i).emitted ++ n ∧
        (.transmissionSessionCompleted r.session ∈ n →
          ∃ r', ((w i).step c).requests = (w i).requests ++ [r'] ∧ r'.session = r.session ∧
            r'.transfer.redLen = 0 ∧
            ∃ now, c = .request r'.peer r'.transfer.clientService r'.transfer.block 0 now) := by
  refine hshort.sender (h.faithful.transmits i r.session hown) hvalid henabled ?_
  intro seg now rs hreceives hsid hbody s hs
  rw [← hsid] at hs hown
  obtain ⟨-, -, htransfer⟩ := htraced.serves hreceives hbody hown hs
  rw [hsid, hheard] at htransfer
  exact congrArg Transfer.redLen htransfer

/-- Another host is called, with data of what is heard of. -/
theorem Tracked.receiver {G : Set Nat} (h : w.Tracked heard i cancelled) (hk : k ≠ i)
    (henabled : w.Enabled false k c) (htraced : w.Traced heard i (k, .call c))
    (hown : r.session.originator = (w i).engine.config.engineId) (hheard : heard r.session = r)
    (hvalid : r.transfer.Valid)
    (hkept : r.session ∈ (w k).engine.cancelledSessions →
      r.session ∈ ((w k).step c).engine.cancelledSessions) (hshort : Short i r G w) :
    Delivers (Function.update w k ((w k).step c)) i r ∨
      ∃ G', Short i r G' (Function.update w k ((w k).step c)) := by
  have hforeign : r.session.originator ≠ (w k).engine.config.engineId := by
    rw [hown]
    exact fun heq => hk (h.faithful.ids heq).symm
  refine hshort.receiver h.faithful.ids hk (h.faithful.collects k r.session hforeign)
    (htraced.cut h.faithful henabled hforeign) (fun r' hr' hsid => ?_) hvalid hkept
  have heq : r' = r := by rw [← hr'.2 (hsid ▸ hown), hsid, hheard]
  exact ⟨heq, heq ▸ hr'.1.1⟩

theorem Tracked.call (h : w.Tracked heard i cancelled) (henabled : w.Enabled false k c)
    (htraced : w.Traced heard i (k, .call c)) (hdistinct : w.OthersDistinct i)
    (hcard : ∀ j, j ≠ i → (cancelled j).card ≤ 1024)
    (hrec : ∀ j, j ≠ i → ∀ t ∈ (Function.update w k ((w k).step c) j).engine.cancelledSessions,
      t ∈ cancelled j) :
    Tracked heard i cancelled (Function.update w k ((w k).step c)) := by
  have howned := h.faithful.owned k
  have hconfig : ((w k).step c).engine.config = (w k).engine.config := Host.config_step howned c
  have hmore : ∀ j r, w.Heard heard i j r →
      Heard heard i (Function.update w k ((w k).step c)) j r :=
    Heard.update_host hconfig (Host.requests_prefix_step howned c)
  refine ⟨?_, fun j hj => ?_, hrec, fun r hheard hsid hvalid hpos => ?_⟩
  · refine h.faithful.call hmore (fun sid hforeign => htraced.cut h.faithful henabled hforeign)
      (fun r r' hr hr' => hr.unique h.faithful hdistinct hr') fun r hr => hr.valid h.faithful
  · by_cases hjk : j = k
    · subst hjk
      rw [Function.update_self]
      exact (h.numbered j hj).step howned c
    · rw [Function.update_of_ne hjk]
      exact h.numbered j hj
  · rw [config_update_host hconfig] at hsid
    rcases h.outcome r hheard hsid hvalid hpos with hdelivers | ⟨G, hshort⟩
    · exact .inl (hdelivers.step howned)
    · by_cases hk : k = i
      · subst hk
        exact .inr ⟨G, (h.sender henabled htraced hheard hsid hvalid hshort).1⟩
      · refine h.receiver hk henabled htraced hsid hheard hvalid (fun hmem => ?_) hshort
        have hnew := hrec k hk
        rw [Function.update_self] at hnew
        exact Host.mem_cache_step r.session (Host.caches_step howned c).2 (hcard k hk)
          (h.cancelled k hk) hnew hmem

end Step

/-! ### What completes -/

/-- The host to which the request was sent has told its client of the red part of its block. -/
def DeliversRed (w : World ι) (i : ι) (r : Request) : Prop :=
  ∃ j, j ≠ i ∧ r.peer = (w j).engine.config.engineId ∧ ∃ source clientService eob,
    .redPartReceived r.session source clientService r.transfer.redPart eob ∈ (w j).emitted

/-- Between `w` and `w'` host `i` has made the request, or had a session for it open before. -/
def Handles (i : ι) (w w' : World ι) (r : Request) : Prop :=
  r ∈ (w' i).requests ∧ ((w' i).requests = (w i).requests ++ [r] ∨
    ∃ s, (w i).engine.sendSessions[r.session]? = some s ∧ s.Serves r)

/-- The others tell only of what was requested, in one incarnation of host `i` or another, and host `i`
completes a request with a red part only once that was delivered. -/
structure Safe (i : ι) (w w' : World ι) : Prop where
  intact : ∀ j, j ≠ i → w'.Intact j
  completed : ∀ n sid, (w' i).emitted = (w i).emitted ++ n → .transmissionSessionCompleted sid ∈ n →
    ∃ r, r.session = sid ∧ Handles i w w' r ∧ (0 < r.transfer.redLen → w'.DeliversRed i r)

end World

/-- A receive session completes nothing. -/
theorem RecvMove.not_completes {config : EngineConfig} {sid t : SessionId} {trigger : RecvTrigger}
    {v v' : RecvView} {p : List Push} {n : List Notice} (h : RecvMove config sid trigger v p n v') :
    .transmissionSessionCompleted t ∉ n := by
  have hdelivery (s : RecvSession) (source : EngineId) :
      .transmissionSessionCompleted t ∉ s.deliveryNotices sid source := by
    unfold RecvSession.deliveryNotices
    split <;> simp
  cases h with
  | dataStored => exact hdelivery _ _
  | dataGreen => simp [hdelivery]
  | _ => simp

namespace Host

variable {h : Host} {sid : SessionId} {c : Call}

/-- A session completes when a request without a red part is made, or when a report comes in while it is
open. -/
theorem completes_step (hinv : h.Transmits sid) {n : List Notice}
    (hemitted : (h.step c).emitted = h.emitted ++ n)
    (hmem : .transmissionSessionCompleted sid ∈ n) :
    (∃ r, (h.step c).requests = h.requests ++ [r] ∧ r.session = sid ∧ r.transfer.redLen = 0) ∨
      ∃ seg now rs s, Receives c seg now ∧ seg.session = sid ∧ seg.body = .report rs ∧
        h.engine.sendSessions[sid]? = some s := by
  obtain ⟨redLen, hred, hlen⟩ : ∃ redLen < 2 ^ 64, ∀ s, h.engine.sendSessions[sid]? = some s →
      s.redLen = redLen := by
    cases hs : h.engine.sendSessions[sid]? with
    | none => exact ⟨0, by norm_num, nofun⟩
    | some s =>
      have hvalid := (hinv.owned.send sid s hs).2.valid
      refine ⟨s.redLen, hvalid.red_le.trans_lt hvalid.lt, ?_⟩
      rintro _ ⟨⟩
      rfl
  -- claims do not matter here, so everything may be claimed
  obtain ⟨-, n', hemitted', hcompletes⟩ := claims_step (c := c) (G := Set.univ) hinv hred
    (fun _ _ _ _ _ _ => ⟨fun x _ => Set.mem_univ x, hlen⟩) fun _ _ x _ => Set.mem_univ x
  have hsame : n = n' := List.append_cancel_left (hemitted.symm.trans hemitted')
  subst hsame
  rcases hcompletes hmem with ⟨r, hrequests, hsid, hzero, -⟩ | ⟨⟨seg, now, rs, hreport⟩, hopen, -⟩
  · exact .inl ⟨r, hrequests, hsid, hzero⟩
  · obtain ⟨s, hs⟩ := Option.ne_none_iff_exists'.mp hopen
    exact .inr ⟨seg, now, rs, s, hreport.1, hreport.2.1, hreport.2.2, hs⟩

/-- A host completes sessions of its own only. -/
theorem own_of_completes (hown : h.engine.Owned) {n : List Notice}
    (hemitted : (h.step c).emitted = h.emitted ++ n)
    (hmem : .transmissionSessionCompleted sid ∈ n) :
    sid.originator = h.engine.config.engineId := by
  by_contra hforeign
  cases recvChange hown c hforeign with
  | @moved trigger p n' cause move pushed emitted =>
    have hsame : n = n' := List.append_cancel_left (hemitted.symm.trans emitted)
    subst hsame
    exact move.not_completes hmem
  | tick _ _ _ _ _ _ emitted =>
    have hnil : n = [] := List.append_right_eq_self.mp (hemitted.symm.trans emitted)
    rw [hnil] at hmem
    cases hmem
  | other _ _ _ _ _ _ emitted =>
    obtain ⟨n', hemitted', hn'⟩ := emitted
    have hsame : n = n' := List.append_cancel_left (hemitted.symm.trans hemitted')
    subst hsame
    exact hn' _ hmem rfl

end Host

namespace World

variable {ι : Type} {w w' : World ι} {i k : ι} {heard : SessionId → Request} {r : Request}
  {sid : SessionId} {c : Call} {cancelled : ι → Finset SessionId}

/-- What was delivered of a request that is heard of is its red part. -/
theorem Delivers.red (hdelivers : w.Delivers i r) (hw : w.FaithfulTo (w.Heard heard i))
    (hheard : heard r.session = r) (hown : r.session.originator = (w i).engine.config.engineId) :
    w.DeliversRed i r := by
  obtain ⟨j, hj, hpeer, x, hx, hsid, hdelivery⟩ := hdelivers
  have hforeign : r.session.originator ≠ (w j).engine.config.engineId := by
    rw [hown]
    exact fun heq => hj (hw.ids heq).symm
  have hcarries : x.carriesData = true := by cases x <;> first | rfl | cases hdelivery
  obtain ⟨r', hr', hrsid, htells⟩ := (hw.collects j r.session hforeign).tells x hx hsid hcarries
  have heq : r' = r := by rw [← hr'.2 (hrsid ▸ hown), hrsid, hheard]
  subst heq
  cases x with
  | redPartReceived session source clientService data eob =>
    obtain ⟨-, -, hdata, -⟩ := htells
    cases hsid
    exact ⟨j, hj, hpeer, source, clientService, eob, hdata ▸ hx⟩
  | greenSegmentArrived | transmissionSessionCompleted | transmissionSessionCancelled =>
    cases hdelivery

theorem safe_of_emitted (h' : Tracked heard i cancelled w')
    (hemitted : (w' i).emitted.length ≤ (w i).emitted.length) : Safe i w w' where
  intact := fun _ _ => h'.faithful.intact fun _ hr => hr.1
  completed := fun n sid hn hmem => by
    have hlength := congrArg List.length hn
    have hpos := List.length_pos_of_mem hmem
    rw [List.length_append] at hlength
    omega

section Step

variable [DecidableEq ι]

/-- When host `i` completes a request with a red part, that was delivered. -/
theorem Tracked.completed (h : w.Tracked heard i cancelled)
    (h' : Tracked heard i cancelled (Function.update w i ((w i).step c)))
    (henabled : w.Enabled false i c) (htraced : w.Traced heard i (i, .call c)) {n : List Notice}
    (hemitted : ((w i).step c).emitted = (w i).emitted ++ n)
    (hmem : .transmissionSessionCompleted sid ∈ n) :
    ∃ r, r.session = sid ∧ Handles i w (Function.update w i ((w i).step c)) r ∧
      (0 < r.transfer.redLen → DeliversRed (Function.update w i ((w i).step c)) i r) := by
  have howned := h.faithful.owned i
  have hown := Host.own_of_completes howned hemitted hmem
  have htransmits := h.faithful.transmits i sid hown
  unfold Handles
  rw [Function.update_self]
  rcases Host.completes_step htransmits hemitted hmem with
    ⟨r, hrequests, hsid, hzero⟩ | ⟨seg, now, rs, s, hreceives, rfl, hbody, hs⟩
  · refine ⟨r, hsid, ⟨?_, .inl hrequests⟩, fun hpos => absurd hzero hpos.ne'⟩
    rw [hrequests]
    exact List.mem_concat_self
  · obtain ⟨hsession, hserves⟩ := htraced.serves hreceives hbody hown hs
    obtain ⟨r, hr, hrsid, hpeer, htransfer⟩ := htransmits.session s hs
    have hsame : heard seg.session = r := by
      obtain ⟨session, peer, transfer⟩ := r
      generalize heard seg.session = r' at hsession hserves ⊢
      obtain ⟨session', peer', transfer'⟩ := r'
      obtain ⟨hpeer', htransfer'⟩ := hserves
      simp only at hsession hrsid hpeer htransfer hpeer' htransfer'
      rw [hsession, hrsid, hpeer, htransfer, hpeer', htransfer']
    have hheard : heard r.session = r := hrsid ▸ hsame
    have hown' : r.session.originator = (w i).engine.config.engineId := hrsid ▸ hown
    refine ⟨r, hrsid, ⟨(Host.requests_prefix_step howned c).subset hr, .inr ⟨s, hrsid ▸ hs, ?_⟩⟩,
      fun hpos => ?_⟩
    · exact ⟨hpeer.symm, htransfer.symm⟩
    · have hvalid := h.faithful.valid hr
      rcases h.outcome r hheard hown' hvalid hpos with hdelivers | ⟨G, hshort⟩
      · refine (hdelivers.step howned).red h'.faithful hheard ?_
        rwa [config_update_host (Host.config_step howned c)]
      · -- what was received only in part is not completed by a report
        obtain ⟨-, n', hemitted', hcompletes⟩ :=
          h.sender henabled htraced hheard hown' hvalid hshort
        have hn : n = n' := List.append_cancel_left (hemitted.symm.trans hemitted')
        subst hn
        obtain ⟨r', -, -, -, now', hrequest⟩ := hcompletes (hrsid ▸ hmem)
        obtain ⟨source, bytes, hsegment, -⟩ := hreceives
        rw [hrequest] at hsegment
        cases hsegment

end Step

variable [Fintype ι] [DecidableEq ι]

theorem Tracked.step (h : w.Tracked heard i cancelled) {e : ι × Event}
    (htraced : w.Traced heard i e) (hcount : ∀ j, j ≠ i → (w j).requests.length < 2 ^ 64)
    (hcard : ∀ j, j ≠ i → (cancelled j).card ≤ 1024) (hrec : w.Records i cancelled e) :
    Tracked heard i cancelled (w.step false e) ∧ Safe i w (w.step false e) := by
  unfold Records at hrec
  rcases w.step_cases e with heq | ⟨k, c, rfl, henabled, heq⟩ | ⟨k, rfl, heq⟩
  · rw [heq]
    exact ⟨h, safe_of_emitted h le_rfl⟩
  · rw [heq] at hrec ⊢
    have hdistinct : w.OthersDistinct i := fun j hj => (h.numbered j hj).nodup (hcount j hj)
    have h' := h.call henabled htraced hdistinct hcard hrec
    refine ⟨h', ?_⟩
    by_cases hk : k = i
    · subst hk
      refine ⟨fun _ _ => h'.faithful.intact fun _ hr => hr.1, fun n sid hemitted hmem => ?_⟩
      rw [Function.update_self] at hemitted
      exact h.completed h' henabled htraced hemitted hmem
    · refine safe_of_emitted h' ?_
      rw [Function.update_of_ne (Ne.symm hk)]
  · obtain rfl : k = i := htraced
    rw [heq]
    refine ⟨h.restart, safe_of_emitted h.restart ?_⟩
    rw [Function.update_self]
    simp [Host.emitted, Host.restart, Host.new, Engine.new]

/-- If each host has made fewer requests in the end, it is so before each event. -/
theorem along_counted (hw : w.Owned) {events : List (ι × Event)}
    (hcount : ∀ j, j ≠ i → (run false w events j).requests.length < 2 ^ 64) :
    Along (step false) (fun w _ => ∀ j, j ≠ i → (w j).requests.length < 2 ^ 64) w events := by
  induction events generalizing w with
  | nil => trivial
  | cons e events ih =>
    refine ⟨fun j hj => ?_, ih (hw.step e) hcount⟩
    exact (requests_prefix_run hw (e :: events) j).length_le.trans_lt (hcount j hj)

end World

open World in
/-- In every run of engines with distinct identifiers in which host `i` restarts, as long as under each of its
session numbers one request only is heard of and reported on, and the others record at most 1024
sessions as cancelled: every step is safe. -/
theorem restarts_safe {ι : Type} [Fintype ι] [DecidableEq ι] {config : ι → EngineConfig}
    (hids : Function.Injective fun i => (config i).engineId) {i : ι} {events : List (ι × Event)}
    (hsessions : ∀ j, j ≠ i → (run false (new config) events j).requests.length < 2 ^ 64)
    {cancelled : ι → Finset SessionId} (hcard : ∀ j, j ≠ i → (cancelled j).card ≤ 1024)
    (hrec : Along (step false) (Records i cancelled) (new config) events)
    {heard : SessionId → Request}
    (htraced : Along (step false) (Traced heard i) (new config) events) :
    Along (step false) (fun w e => Safe i w (w.step false e)) (new config) events := by
  have hcount := along_counted (i := i) (owned_new config) hsessions
  have hnew : Tracked heard i cancelled (new config) := tracked_new hids
  refine (htraced.and (hcount.and hrec)).strengthen ?_ ?_ hnew
  · rintro w e h ⟨htraced, hcount, hrec⟩
    exact (h.step htraced hcount hcard hrec).1
  · rintro w e h ⟨htraced, hcount, hrec⟩
    exact (h.step htraced hcount hcard hrec).2

def engineOne : Fin 2 := ⟨0, Nat.zero_lt_two⟩

def engineTwo : Fin 2 := ⟨1, Nat.one_lt_two⟩

/-- Engine 1 requests a block whose segment is lost and restarts.  Its new engine sends another block under
the same session number, which arrives. -/
def retried : List (Fin 2 × Event) :=
  [(engineOne, .call (.request ⟨2⟩ 1 [5, 6] 2 0)), (engineOne, .call .pollOutput),
    (engineOne, .restart)] ++ World.calls reported

open World in
theorem restarts_safe_retried :
    ((run false (new twoEngines) retried 0).requests.map Request.session = [⟨⟨1⟩, 1⟩, ⟨⟨1⟩, 1⟩]) ∧
      Along (step false) (fun w e => Safe 0 w (w.step false e)) (new twoEngines) retried := by
  have hrec : Along (step false) (Records 0 fun _ => ∅) (new twoEngines) retried := by
    decide +kernel
  have htraced : Along (step false) (Traced (fun _ => ⟨⟨⟨1⟩, 1⟩, ⟨2⟩, 1, [7, 8, 9], 2⟩) 0)
      (new twoEngines) retried := by
    decide +kernel
  exact ⟨by decide +kernel, restarts_safe (by decide) (by decide +kernel) (by decide) hrec htraced⟩

/-- After a block that was sent, delivered and reported, engine 1 restarts and sends another one under the
same session number. -/
def repeated : List (Fin 2 × Event) :=
  World.calls reported ++
    [(engineOne, .call .pollOutput), (engineTwo, .call (.segment ⟨1⟩ [9, 1, 1, 0, 1] 9)),
      (engineOne, .restart), (engineOne, .call (.request ⟨2⟩ 1 [5, 6] 2 10)),
      (engineOne, .call .pollOutput),
      (engineTwo, .call (.segment ⟨1⟩ [3, 1, 1, 0, 1, 0, 2, 1, 0, 5, 6] 11)),
      (engineTwo, .call .pollOutput)]

/-- What engine 2 has reported on the first block, and reports again on the second. -/
def sameReport : Call := .segment ⟨2⟩ [8, 1, 1, 0, 1, 1, 2, 0, 1, 0, 2] 12

def beforeReport : World (Fin 2) := World.run false (World.new twoEngines) repeated

def afterReport : World (Fin 2) := beforeReport.step false (engineOne, .call sameReport)

open World in
/-- The receiver takes the second block for the first, which it has closed, and reports all of it: the new
engine completes what was never delivered. -/
theorem restart_completes_undelivered :
    beforeReport.Enabled false engineOne sameReport ∧
    ((afterReport engineOne).requests.map fun r => (r.session, r.transfer.redPart)) =
      [(⟨⟨1⟩, 1⟩, [7, 8]), (⟨⟨1⟩, 1⟩, [5, 6])] ∧
    (afterReport engineOne).emitted =
      (beforeReport engineOne).emitted ++ [.transmissionSessionCompleted ⟨⟨1⟩, 1⟩] ∧
    (afterReport engineTwo).emitted =
      [.greenSegmentArrived ⟨⟨1⟩, 1⟩ ⟨1⟩ 2 [9] true,
        .redPartReceived ⟨⟨1⟩, 1⟩ ⟨1⟩ 1 [7, 8] false] ∧
    ¬Safe engineOne beforeReport afterReport := by
  have hemitted : (afterReport engineOne).emitted =
      (beforeReport engineOne).emitted ++ [.transmissionSessionCompleted ⟨⟨1⟩, 1⟩] := by
    decide +kernel
  have htold : (afterReport engineTwo).emitted =
      [.greenSegmentArrived ⟨⟨1⟩, 1⟩ ⟨1⟩ 2 [9] true,
        .redPartReceived ⟨⟨1⟩, 1⟩ ⟨1⟩ 1 [7, 8] false] := by
    decide +kernel
  have hmade : (afterReport engineOne).requests.length =
      (beforeReport engineOne).requests.length := by
    decide +kernel
  have hopen : ((beforeReport engineOne).engine.sendSessions[(⟨⟨1⟩, 1⟩ : SessionId)]?.map
      SendSession.transfer) = some ⟨1, [5, 6], 2⟩ := by
    decide +kernel
  refine ⟨by decide +kernel, by decide +kernel, hemitted, htold, fun hsafe => ?_⟩
  obtain ⟨r, hsid, ⟨-, hnew | ⟨s, hs, -, hserves⟩⟩, hred⟩ :=
    hsafe.completed _ _ hemitted List.mem_cons_self
  · rw [hnew, List.length_append, List.length_singleton] at hmade
    omega
  · rw [hsid] at hs
    rw [hs, Option.map_some, Option.some.injEq] at hopen
    rw [hopen] at hserves
    rw [← hserves] at hred
    obtain ⟨j, hj, -, source, clientService, eob, hmem⟩ := hred (by decide)
    have hother : ∀ j, j ≠ engineOne → j = engineTwo := by decide
    rw [hother j hj, htold] at hmem
    simp [← hserves, Transfer.redPart] at hmem

end HdyUtils.Ltp
