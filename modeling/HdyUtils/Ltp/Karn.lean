import HdyUtils.Ltp.Engine.StepBooks
import HdyUtils.Ltp.HostMove

/-! Karn's rule.  A sample of the round-trip time is unambiguous if the segment that it is taken on was
put out once.  The retry counters see to that as far as timers go; a report that a repeated
checkpoint sends again is not counted, and samples all the same. -/

namespace HdyUtils.Ltp

open Trace

namespace Host

/-! ### Calls -/

/-- The time of a call; an expired timer is handled at the time of its tick. -/
def time (h : Host) : Call → Nat
  | .request _ _ _ _ now | .segment _ _ now | .tick now => now
  | _ => h.tickTime

/-- The expired timer that the call handles. -/
def expiring (h : Host) : Call → Option TimerKey
  | .fire => h.pending.head?
  | _ => none

/-- The sample that the call applies. -/
def sampled (h : Host) (c : Call) : Option Sample :=
  match c, received c with
  | .segment source _ now, some segment =>
    if h.pending = [] then h.engine.segmentSample source segment now else none
  | _, _ => none

/-- The reports that the call makes the engine send again for a repeated checkpoint. -/
def repeats (h : Host) (c : Call) : List TimerKey :=
  match c, received c with
  | .segment source _ now, some ⟨sid, _, _, .data ds⟩ =>
    if h.pending = [] ∧ sid.originator ≠ h.engine.config.engineId then
      (h.engine.repeats (h.engine.effectiveFrom source sid) sid ds now).map (.report sid)
    else []
  | _, _ => []

/-- The peer timings change with the sample of the call, or when the host sets them. -/
def TimingsFollow (h : Host) (c : Call) : Prop :=
  match c with
  | .setPeerTiming .. | .updatePeerRttSample .. => True
  | _ => (h.step c).engine.peerTimings = (h.engine.applySample (h.sampled c)).peerTimings

/-- What the call does to the books: they are kept, or the timer that expires sends its own segment
again. -/
inductive Accounts (h : Host) (c : Call) (out : List (EngineId × Bytes)) : Prop
  | booked (silent : ∀ key, h.expiring c = some key → key ∉ timersOf out)
      (tally : ∀ key t, (h.step c).engine.tally key = some t →
        Engine.Booked (h.time c) out h.engine key t)
  | resent {key} (expires : h.expiring c = some key) (timers : timersOf out = [key])
      (tally : ∃ t, h.engine.tally key = some t ∧
        (h.step c).engine.tally key = some { t with retries := t.retries + 1 })
      (others : ∀ key', key' ≠ key → (h.step c).engine.tally key' = h.engine.tally key')

/-- A call that puts nothing out and leaves the sessions alone. -/
theorem accounts_same {h : Host} {c : Call} (hpushed : (h.step c).pushed = h.pushed)
    (hsend : (h.step c).engine.sendSessions = h.engine.sendSessions)
    (hrecv : (h.step c).engine.recvSessions = h.engine.recvSessions) :
    ∃ out, (h.step c).pushed = h.pushed ++ out ∧ h.Accounts c out := by
  refine ⟨[], by simpa using hpushed, .booked (by simp) fun key t ht => .inl ?_⟩
  exact Engine.tally_of_le (fun _ _ hs => by rwa [hsend] at hs) (fun _ _ hs => by rwa [hrecv] at hs) ht

/-- A call whose books are kept from an engine `e` with the sessions of the host's. -/
theorem accounts_books {h : Host} {c : Call} {out : List (EngineId × Bytes)} {e : Engine}
    (hbooks : Engine.Books (h.time c) out e (h.step c).engine)
    (houtbound : e.outbound = h.engine.outbound) (hsend : e.sendSessions = h.engine.sendSessions)
    (hrecv : e.recvSessions = h.engine.recvSessions) (hsent : (h.step c).sent = h.sent)
    (hsilent : ∀ key, h.expiring c = some key → key ∉ timersOf out) :
    ∃ out, (h.step c).pushed = h.pushed ++ out ∧ h.Accounts c out := by
  refine ⟨out, ?_, .booked hsilent fun key t ht => ?_⟩
  · rw [pushed, hsent, hbooks.outbound, houtbound, ← List.append_assoc]
    rfl
  · refine (hbooks.tally key t ht).imp_left fun hold => ?_
    exact Engine.tally_of_le (fun _ _ hs => by rwa [hsend] at hs) (fun _ _ hs => by rwa [hrecv] at hs)
      hold

theorem accounts_request (h : Host) (peer : EngineId) (clientService : UInt64) (block : Bytes)
    (redLen now : Nat) (hidle : h.pending = []) :
    let c := Call.request peer clientService block redLen now
    (∃ out, (h.step c).pushed = h.pushed ++ out ∧ h.Accounts c out) ∧ h.TimingsFollow c := by
  have hstep : h.step (.request peer clientService block redLen now) =
      h.request peer clientService block redLen now := step_idle hidle _
  unfold request at hstep
  cases hrequest : h.engine.requestTransmission peer clientService block redLen now with
  | error err =>
    simp only [hrequest] at hstep
    refine ⟨accounts_same (by rw [hstep]) (by rw [hstep]) (by rw [hstep]), ?_⟩
    simp only [TimingsFollow, hstep]
    rfl
  | ok result =>
    obtain ⟨sid, e⟩ := result
    simp only [hrequest] at hstep
    obtain ⟨out, hbooks⟩ := Engine.books_requestTransmission hrequest
    have hengine : (h.step (.request peer clientService block redLen now)).engine = e := by
      rw [hstep]
    rw [← hengine] at hbooks
    exact ⟨accounts_books hbooks rfl rfl rfl (by rw [hstep]) (by simp [expiring]), hbooks.timings⟩

/-- A segment that parses is handed to the engine. -/
theorem step_segment {h : Host} {source : EngineId} {bytes : Bytes} {now : Nat} {segment : Segment}
    (hidle : h.pending = []) (hreceived : received (.segment source bytes now) = some segment) :
    h.step (.segment source bytes now) =
      { h with engine := h.engine.handleSegment source segment now } := by
  rw [step_idle hidle]
  unfold received at hreceived
  simp only at hreceived
  split at hreceived
  · rename_i parsed consumed hparse
    split at hreceived
    · rename_i hlen
      cases hreceived
      simp only [call, receive, Engine.handleIncomingSegment, hparse, hlen, ne_eq,
        not_true_eq_false, if_false]
    · cases hreceived
  · cases hreceived

/-- A segment that does not parse changes nothing. -/
theorem step_refused {h : Host} {source : EngineId} {bytes : Bytes} {now : Nat}
    (hidle : h.pending = []) (hreceived : received (.segment source bytes now) = none) :
    h.step (.segment source bytes now) = h := by
  rw [step_idle hidle]
  unfold received at hreceived
  simp only at hreceived
  split at hreceived
  · rename_i parsed consumed hparse
    split at hreceived
    · cases hreceived
    · rename_i hlen
      simp only [call, receive, Engine.handleIncomingSegment, hparse, ne_eq, hlen,
        not_false_eq_true, if_true]
  · rename_i err hparse
    simp only [call, receive, Engine.handleIncomingSegment, hparse]

theorem accounts_segment {h : Host} (hown : h.engine.Owned) (source : EngineId) (bytes : Bytes)
    (now : Nat) (hidle : h.pending = []) :
    let c := Call.segment source bytes now
    (∃ out, (h.step c).pushed = h.pushed ++ out ∧ h.Accounts c out) ∧ h.TimingsFollow c := by
  cases hreceived : received (.segment source bytes now) with
  | none =>
    have hstay := step_refused hidle hreceived
    refine ⟨accounts_same (by rw [hstay]) (by rw [hstay]) (by rw [hstay]), ?_⟩
    simp only [TimingsFollow, hstay, sampled, hreceived]
    rfl
  | some segment =>
    have hstep := step_segment hidle hreceived
    obtain ⟨out, hbooks⟩ := h.engine.books_handleSegment source segment now fun s hs =>
      (hown.send _ s hs).2.id
    have hengine : (h.step (.segment source bytes now)).engine =
        h.engine.handleSegment source segment now := by rw [hstep]
    rw [← hengine] at hbooks
    refine ⟨accounts_books hbooks (by simp) (by simp) (by simp) (by rw [hstep])
      (by simp [expiring]), ?_⟩
    simp only [TimingsFollow, sampled, hreceived, hidle, if_true]
    exact hbooks.timings

theorem accounts_fire {h : Host}
    (hserial : ∀ key t, h.engine.tally key = some t → t.serial = key.kind.field) :
    (∃ out, (h.step .fire).pushed = h.pushed ++ out ∧ h.Accounts .fire out) ∧
      h.TimingsFollow .fire := by
  cases hpending : h.pending with
  | nil =>
    have hstay : h.step .fire = h := by rw [step_fire, fire, hpending]
    refine ⟨accounts_same (by rw [hstay]) (by rw [hstay]) (by rw [hstay]), ?_⟩
    simp only [TimingsFollow, hstay]
    rfl
  | cons key rest =>
    have hstep : h.step .fire =
        { h with engine := h.engine.handleExpired h.tickTime key, pending := rest } := by
      rw [step_fire, fire, hpending]
    have hexpiring : h.expiring .fire = some key := by rw [expiring, hpending, List.head?_cons]
    have hengine : (h.step .fire).engine = h.engine.handleExpired h.tickTime key := by rw [hstep]
    rcases h.engine.resends_handleExpired key h.tickTime (hserial key) with ⟨out, hout, hbooks⟩ |
      ⟨out, hresends⟩
    · rw [← hengine] at hbooks
      exact ⟨accounts_books hbooks rfl rfl rfl (by rw [hstep]) (by simp [hout]), hbooks.timings⟩
    · rw [← hengine] at hresends
      refine ⟨⟨out, ?_, .resent hexpiring hresends.timers hresends.tally hresends.others⟩,
        hresends.timings⟩
      rw [pushed, hresends.outbound, hstep, ← List.append_assoc]
      rfl

/-- A call that meets a pending timer is passed over. -/
theorem timings_held {h : Host} {c : Call} (hstay : h.step c = h) (hpending : h.pending ≠ []) :
    h.TimingsFollow c := by
  have hkept : h.engine.peerTimings = (h.engine.applySample (h.sampled c)).peerTimings := by
    have hsampled : h.sampled c = none := by
      unfold sampled
      split
      · exact if_neg hpending
      · rfl
    rw [hsampled]
    rfl
  rw [← hstay] at hkept
  cases c with
  | setPeerTiming | updatePeerRttSample => trivial
  | request | segment | tick | fire | pollOutput | pollNotice =>
    simp only [TimingsFollow, hstay] at hkept ⊢
    exact hkept

theorem exists_accounts {h : Host} (hown : h.engine.Owned)
    (hserial : ∀ key t, h.engine.tally key = some t → t.serial = key.kind.field) (c : Call) :
    (∃ out, (h.step c).pushed = h.pushed ++ out ∧ h.Accounts c out) ∧ h.TimingsFollow c := by
  by_cases hfire : c = .fire
  · rw [hfire]
    exact accounts_fire hserial
  by_cases hidle : h.pending = []
  swap
  · have hstay : h.step c = h := if_neg fun hor => hor.elim hidle hfire
    exact ⟨accounts_same (by rw [hstay]) (by rw [hstay]) (by rw [hstay]), timings_held hstay hidle⟩
  have hstep : h.step c = h.call c := step_idle hidle c
  cases c with
  | request peer clientService block redLen now =>
    exact accounts_request h peer clientService block redLen now hidle
  | segment source bytes now => exact accounts_segment hown source bytes now hidle
  | fire => exact absurd rfl hfire
  | setPeerTiming | updatePeerRttSample =>
    exact ⟨accounts_same (by rw [hstep]; rfl) (by rw [hstep]; rfl) (by rw [hstep]; rfl), trivial⟩
  | tick | pollNotice =>
    refine ⟨accounts_same (by rw [hstep]; rfl) (by rw [hstep]; rfl) (by rw [hstep]; rfl), ?_⟩
    simp only [TimingsFollow, hstep]
    rfl
  | pollOutput =>
    refine ⟨accounts_same ?_ (by rw [hstep]; rfl) (by rw [hstep]; rfl), ?_⟩
    · rw [hstep]
      cases ho : h.engine.outbound <;> simp [call, Host.pollOutput, pushed, Engine.pollOutput, ho]
    · simp only [TimingsFollow, hstep]
      rfl

/-- What the call puts out that awaits an answer. -/
def put (h : Host) (c : Call) : List TimerKey :=
  timersOf ((h.step c).pushed.drop h.pushed.length)

theorem put_eq {h : Host} {c : Call} {out : List (EngineId × Bytes)}
    (hpushed : (h.step c).pushed = h.pushed ++ out) : h.put c = timersOf out := by
  rw [put, hpushed, List.drop_left]

/-- What is sent again for a repeated checkpoint was on the books, and is put out. -/
theorem put_repeats {h : Host}
    (hserial : ∀ key t, h.engine.tally key = some t → t.serial = key.kind.field) {c : Call}
    {out : List (EngineId × Bytes)} (hpushed : (h.step c).pushed = h.pushed ++ out) {key : TimerKey}
    (hkey : key ∈ h.repeats c) : key ∈ timersOf out ∧ ∃ t, h.engine.tally key = some t := by
  unfold repeats at hkey
  split at hkey
  swap
  · cases hkey
  rename_i source bytes now sid cext hext ds hreceived
  split at hkey
  swap
  · cases hkey
  rename_i hcond
  obtain ⟨hidle, hforeign⟩ := hcond
  obtain ⟨serial, hmem, rfl⟩ := List.mem_map.mp hkey
  have hhandle : h.engine.handleSegment source ⟨sid, cext, hext, .data ds⟩ now =
      h.engine.handleIncomingData (h.engine.effectiveFrom source sid) sid ds now := by
    simp only [Engine.handleSegment, beq_eq_false_iff_ne.mpr hforeign, Bool.false_eq_true, if_false]
  have hout : (h.engine.handleIncomingData (h.engine.effectiveFrom source sid) sid ds now).outbound =
      h.engine.outbound ++ out := by
    rw [step_segment hidle hreceived, hhandle, pushed, pushed, List.append_assoc] at hpushed
    exact List.append_cancel_left hpushed
  exact Engine.repeats_put_out hmem (hserial (.report sid serial)) hout

/-! ### Samples -/

/-- A sample measures a record of a segment that no timer has sent again. -/
theorem tally_of_sample {t : Tally} {key : TimerKey} {peer : EngineId} {now : Nat} {smp : Sample}
    (h : t.sample key peer now = some smp) :
    smp.key = key ∧ t.retries = 0 ∧ t.transmittedAt + smp.micros = now := by
  unfold Tally.sample at h
  split at h
  swap
  · cases h
  rename_i hguard
  obtain ⟨hretries, hle⟩ := hguard
  cases h
  exact ⟨rfl, hretries, Nat.add_sub_of_le hle⟩

theorem tally_of_sampled {h : Host} {c : Call} {smp : Sample} (hsampled : h.sampled c = some smp) :
    ∃ t, h.engine.tally smp.key = some t ∧ t.retries = 0 ∧
      t.transmittedAt + smp.micros = h.time c := by
  unfold sampled at hsampled
  split at hsampled
  swap
  · cases hsampled
  rename_i source bytes now segment hreceived
  split at hsampled
  swap
  · cases hsampled
  unfold Engine.segmentSample at hsampled
  simp only at hsampled
  split at hsampled
  · rename_i rs hbody
    split at hsampled
    swap
    · cases hsampled
    obtain ⟨s, hs, hsample⟩ := Option.bind_eq_some_iff.mp hsampled
    split at hsample
    · cases hsample
    obtain ⟨t, ht, hsample⟩ := Option.bind_eq_some_iff.mp hsample
    obtain ⟨hkey, hretries, htime⟩ := tally_of_sample hsample
    refine ⟨t, ?_, hretries, htime⟩
    rw [hkey, Engine.tally_checkpoint, hs, Option.bind_some, ht]
  · rename_i serial hbody
    split at hsampled
    · cases hsampled
    obtain ⟨s, hs, hsample⟩ := Option.bind_eq_some_iff.mp hsampled
    split at hsample
    · cases hsample
    obtain ⟨rec, hrec, hsample⟩ := Option.bind_eq_some_iff.mp hsample
    split at hsample
    · cases hsample
    obtain ⟨hkey, hretries, htime⟩ := tally_of_sample hsample
    refine ⟨rec.tally, ?_, hretries, htime⟩
    rw [hkey, Engine.tally_report, hs, Option.bind_some, RecvSession.tally, hrec]
    rfl
  · cases hsampled

end Host

/-! ### Runs -/

/-- A host whose transmissions are watched: when each segment that awaits an answer was put out, which
were sent again for a repeated checkpoint, and which were issued a second time. -/
structure Watch where
  host : Host
  log : List (TimerKey × Nat)
  repeated : List TimerKey
  reissued : List TimerKey

namespace Watch

def new (config : EngineConfig) : Watch := ⟨.new config, [], [], []⟩

/-- The times at which the segment was put out. -/
def sentAt (w : Watch) (key : TimerKey) : List Nat :=
  (w.log.filter fun x => x.1 = key).map Prod.snd

/-- What the call issues though the serial was issued before: neither the timer of the segment nor a
repeated checkpoint puts it out. -/
def reissues (w : Watch) (c : Call) : List TimerKey :=
  (w.host.put c).filter fun key =>
    w.host.expiring c ≠ some key ∧ key ∉ w.host.repeats c ∧
      (w.sentAt key ≠ [] ∨ 1 < (w.host.put c).count key)

def step (w : Watch) (c : Call) : Watch where
  host := w.host.step c
  log := w.log ++ (w.host.put c).map fun key => (key, w.host.time c)
  repeated := w.repeated ++ w.host.repeats c
  reissued := w.reissued ++ w.reissues c

/-- The call samples only a segment that was put out once, and measures from then. -/
def SamplesOnce (w : Watch) (c : Call) : Prop :=
  ∀ smp, w.host.sampled c = some smp →
    ∃ t, w.sentAt smp.key = [t] ∧ t + smp.micros = w.host.time c

/-- The call samples no segment that was sent again for a repeated checkpoint or issued twice. -/
def Unambiguous (w : Watch) (c : Call) : Prop :=
  ∀ smp, w.host.sampled c = some smp → smp.key ∉ w.repeated ∧ smp.key ∉ w.reissued

/-- The books agree with the log: a record counts the transmissions of its segment, unless that was sent
again for a repeated checkpoint or issued twice. -/
structure Kept (w : Watch) : Prop where
  owned : w.host.engine.Owned
  serial : ∀ key t, w.host.engine.tally key = some t → t.serial = key.kind.field
  counted : ∀ key t, w.host.engine.tally key = some t → key ∉ w.repeated → key ∉ w.reissued →
    (w.sentAt key).length = t.retries + 1 ∧ (w.sentAt key).head? = some t.transmittedAt
  again : ∀ key, key ∈ w.repeated ∨ key ∈ w.reissued → 2 ≤ (w.sentAt key).length

theorem sentAt_step (w : Watch) (c : Call) (key : TimerKey) :
    (w.step c).sentAt key =
      w.sentAt key ++ List.replicate ((w.host.put c).count key) (w.host.time c) := by
  have hput : ∀ keys : List TimerKey,
      ((keys.map fun key => (key, w.host.time c)).filter fun x => x.1 = key).map Prod.snd =
        List.replicate (keys.count key) (w.host.time c) := by
    intro keys
    induction keys with
    | nil => rfl
    | cons key' keys ih =>
      rw [List.map_cons, List.filter_cons, List.count_cons]
      by_cases hkey : key' = key
      · simp [hkey, ih, List.replicate_succ]
      · simp [hkey, ih]
  simp only [sentAt, step, List.filter_append, List.map_append, hput]

theorem sentAt_step_of_not_mem {w : Watch} {c : Call} {key : TimerKey} (h : key ∉ w.host.put c) :
    (w.step c).sentAt key = w.sentAt key := by
  rw [sentAt_step, List.count_eq_zero_of_not_mem h, List.replicate_zero, List.append_nil]

theorem length_sentAt_step (w : Watch) (c : Call) (key : TimerKey) :
    ((w.step c).sentAt key).length = (w.sentAt key).length + (w.host.put c).count key := by
  rw [sentAt_step, List.length_append, List.length_replicate]

theorem mem_reissues {w : Watch} {c : Call} {key : TimerKey} :
    key ∈ w.reissues c ↔ key ∈ w.host.put c ∧ w.host.expiring c ≠ some key ∧
      key ∉ w.host.repeats c ∧ (w.sentAt key ≠ [] ∨ 1 < (w.host.put c).count key) := by
  simp [reissues]

/-- A segment on the books was put out. -/
theorem Kept.logged {w : Watch} (h : w.Kept) {key : TimerKey} {t : Tally}
    (ht : w.host.engine.tally key = some t) : 0 < (w.sentAt key).length := by
  by_cases hagain : key ∈ w.repeated ∨ key ∈ w.reissued
  · have htwice := h.again key hagain
    omega
  · obtain ⟨hrepeated, hreissued⟩ := not_or.mp hagain
    have hcount := (h.counted key t ht hrepeated hreissued).1
    omega

theorem Kept.again_step {w : Watch} (h : w.Kept) {c : Call}
    {out : List (EngineId × Bytes)} (hpushed : (w.host.step c).pushed = w.host.pushed ++ out)
    {key : TimerKey} (hkey : key ∈ (w.step c).repeated ∨ key ∈ (w.step c).reissued) :
    2 ≤ ((w.step c).sentAt key).length := by
  rw [length_sentAt_step]
  have hold : key ∈ w.repeated ∨ key ∈ w.reissued →
      2 ≤ (w.sentAt key).length + (w.host.put c).count key := by
    intro hkey
    have htwice := h.again key hkey
    omega
  rcases hkey with hkey | hkey
  · rcases List.mem_append.mp hkey with hkey | hkey
    · exact hold (.inl hkey)
    · obtain ⟨hmem, t, ht⟩ := Host.put_repeats h.serial hpushed hkey
      have hlogged := h.logged ht
      rw [← Host.put_eq hpushed] at hmem
      have hput := List.count_pos_iff.mpr hmem
      omega
  · rcases List.mem_append.mp hkey with hkey | hkey
    · exact hold (.inr hkey)
    · obtain ⟨hmem, -, -, htwice⟩ := mem_reissues.mp hkey
      have hput := List.count_pos_iff.mpr hmem
      rcases htwice with hsent | hcount
      · have hlogged := List.length_pos_iff.mpr hsent
        omega
      · omega

/-- A segment that the call neither repeats nor issues again is put out by its timer, or once and for the
first time. -/
theorem count_of_not_reissued {w : Watch} {c : Call} {key : TimerKey}
    (hexpiring : w.host.expiring c ≠ some key) (hrepeats : key ∉ w.host.repeats c)
    (hreissues : key ∉ w.reissues c) (hput : key ∈ w.host.put c) :
    w.sentAt key = [] ∧ (w.host.put c).count key = 1 := by
  have hpos := List.count_pos_iff.mpr hput
  by_cases hsent : w.sentAt key = []
  · refine ⟨hsent, ?_⟩
    by_contra hone
    exact hreissues (mem_reissues.mpr ⟨hput, hexpiring, hrepeats, .inr (by omega)⟩)
  · exact absurd (mem_reissues.mpr ⟨hput, hexpiring, hrepeats, .inl hsent⟩) hreissues

theorem Kept.counted_step {w : Watch} (h : w.Kept) {c : Call} {out : List (EngineId × Bytes)}
    (hput : w.host.put c = timersOf out) (haccounts : w.host.Accounts c out) {key : TimerKey}
    {t : Tally} (ht : (w.host.step c).engine.tally key = some t)
    (hrepeated : key ∉ (w.step c).repeated) (hreissued : key ∉ (w.step c).reissued) :
    ((w.step c).sentAt key).length = t.retries + 1 ∧
      ((w.step c).sentAt key).head? = some t.transmittedAt := by
  obtain ⟨hrepeated, hrepeats⟩ := not_or.mp fun hor => hrepeated (List.mem_append.mpr hor)
  obtain ⟨hreissued, hreissues⟩ := not_or.mp fun hor => hreissued (List.mem_append.mpr hor)
  cases haccounts with
  | booked silent tally =>
    have hexpiring : key ∈ w.host.put c → w.host.expiring c ≠ some key := by
      intro hmem hexpires
      rw [hput] at hmem
      exact silent key hexpires hmem
    rcases tally key t ht with hold | ⟨rfl, hmem⟩
    · obtain ⟨hlength, hhead⟩ := h.counted key t hold hrepeated hreissued
      have hquiet : key ∉ w.host.put c := by
        intro hmem
        have hsent := (count_of_not_reissued (hexpiring hmem) hrepeats hreissues hmem).1
        rw [hsent] at hhead
        cases hhead
      rw [sentAt_step_of_not_mem hquiet]
      exact ⟨hlength, hhead⟩
    · rw [← hput] at hmem
      obtain ⟨hsent, hone⟩ := count_of_not_reissued (hexpiring hmem) hrepeats hreissues hmem
      rw [sentAt_step, hsent, hone]
      exact ⟨rfl, rfl⟩
  | @resent expired expires timers tally others =>
    by_cases hkey : key = expired
    · subst hkey
      obtain ⟨t₀, hold, hnew⟩ := tally
      rw [hnew] at ht
      cases ht
      obtain ⟨hlength, hhead⟩ := h.counted key t₀ hold hrepeated hreissued
      have hone : (w.host.put c).count key = 1 := by rw [hput, timers, List.count_singleton_self]
      refine ⟨?_, ?_⟩
      · rw [length_sentAt_step, hone, hlength]
      · rw [sentAt_step, List.head?_append, hhead, Option.some_or]
    · have hquiet : key ∉ w.host.put c := by
        rw [hput, timers]
        exact fun hmem => hkey (List.mem_singleton.mp hmem)
      rw [others key hkey] at ht
      rw [sentAt_step_of_not_mem hquiet]
      exact h.counted key t ht hrepeated hreissued

theorem Kept.serial_step {w : Watch} (h : w.Kept) {c : Call} {out : List (EngineId × Bytes)}
    (haccounts : w.host.Accounts c out) (key : TimerKey) (t : Tally)
    (ht : (w.host.step c).engine.tally key = some t) : t.serial = key.kind.field := by
  cases haccounts with
  | booked silent tally =>
    rcases tally key t ht with hold | ⟨rfl, -⟩
    · exact h.serial key t hold
    · rfl
  | @resent expired expires timers tally others =>
    by_cases hkey : key = expired
    · subst hkey
      obtain ⟨t₀, hold, hnew⟩ := tally
      rw [hnew] at ht
      cases ht
      exact h.serial key t₀ hold
    · rw [others key hkey] at ht
      exact h.serial key t ht

theorem kept_new (config : EngineConfig) : (new config).Kept where
  owned := Engine.owned_new config
  serial key t ht := by
    obtain ⟨sid, kind⟩ := key
    cases kind <;> simp [new, Host.new, Engine.new, Engine.tally] at ht
  counted key t ht := by
    obtain ⟨sid, kind⟩ := key
    cases kind <;> simp [new, Host.new, Engine.new, Engine.tally] at ht
  again key hkey := by simp [new] at hkey

theorem Kept.step {w : Watch} (h : w.Kept) (c : Call) : (w.step c).Kept := by
  obtain ⟨⟨out, hpushed, haccounts⟩, -⟩ := Host.exists_accounts h.owned h.serial c
  exact ⟨Host.owned_step h.owned c, h.serial_step haccounts,
    fun _ _ => h.counted_step (Host.put_eq hpushed) haccounts, fun _ => h.again_step hpushed⟩

theorem Kept.samplesOnce_iff {w : Watch} (h : w.Kept) (c : Call) :
    w.SamplesOnce c ↔ w.Unambiguous c := by
  constructor
  · intro honce smp hsampled
    obtain ⟨t, hsent, -⟩ := honce smp hsampled
    have hone : (w.sentAt smp.key).length = 1 := by rw [hsent, List.length_singleton]
    have hnot : ¬(smp.key ∈ w.repeated ∨ smp.key ∈ w.reissued) := by
      intro hagain
      have htwice := h.again smp.key hagain
      omega
    exact not_or.mp hnot
  · intro hunambiguous smp hsampled
    obtain ⟨t, ht, hretries, htime⟩ := Host.tally_of_sampled hsampled
    obtain ⟨hrepeated, hreissued⟩ := hunambiguous smp hsampled
    obtain ⟨hlength, hhead⟩ := h.counted smp.key t ht hrepeated hreissued
    rw [hretries] at hlength
    obtain ⟨at₀, hsent⟩ := List.length_eq_one_iff.mp hlength
    rw [hsent, List.head?_cons, Option.some.injEq] at hhead
    exact ⟨at₀, hsent, by rw [hhead]; exact htime⟩

end Watch

/-- Karn's rule: the timings of a peer follow the samples, and every sample of a run measures the one
transmission of its segment exactly if no sample is taken on a segment that a repeated checkpoint sent
again or whose serial was issued twice. -/
theorem samples_once_iff (config : EngineConfig) (calls : List Call) :
    Along Watch.step (fun w c => w.host.TimingsFollow c) (Watch.new config) calls ∧
      (Along Watch.step Watch.SamplesOnce (Watch.new config) calls ↔
        Along Watch.step Watch.Unambiguous (Watch.new config) calls) := by
  have hkept : ∀ (w : Watch) (c : Call), w.Kept → (w.step c).Kept := fun _ c h => h.step c
  have hnew := Watch.kept_new config
  refine ⟨?_, ?_, ?_⟩
  · have htrue : Along Watch.step (fun _ _ => True) (Watch.new config) calls :=
      along_of_forall_mem fun _ _ _ => trivial
    have htimings : ∀ (w : Watch) (c : Call), w.Kept → w.host.TimingsFollow c := fun _ c h =>
      (Host.exists_accounts h.owned h.serial c).2
    exact htrue.strengthen (fun w c h _ => hkept w c h) (fun w c h _ => htimings w c h) hnew
  · intro honce
    exact honce.strengthen (fun w c h _ => hkept w c h)
      (fun w c h => (h.samplesOnce_iff c).mp) hnew
  · intro hunambiguous
    exact hunambiguous.strengthen (fun w c h _ => hkept w c h)
      (fun w c h => (h.samplesOnce_iff c).mpr) hnew

/-- The segment that carries a red block of one byte. -/
def redByte : Bytes := [3, 2, 1, 0, 1, 0, 1, 1, 0, 7]

/-- The checkpoint comes again before the report is acknowledged, and the report goes out again; the
sample is taken from the first time that it went out. -/
theorem samples_repeated_report :
    ¬Along Watch.step Watch.SamplesOnce (Watch.new .default)
      [.segment ⟨2⟩ redByte 5, .segment ⟨2⟩ redByte 100, .segment ⟨2⟩ [9, 2, 1, 0, 1] 110] := by
  intro honce
  have hsample :
      let w := run Watch.step (Watch.new .default)
        [.segment ⟨2⟩ redByte 5, .segment ⟨2⟩ redByte 100]
      (w.host.sampled (.segment ⟨2⟩ [9, 2, 1, 0, 1] 110)).map
        (fun smp => (smp.micros, w.sentAt smp.key)) = some (105, [5, 100]) := by decide +kernel
  obtain ⟨smp, hsampled, hsent⟩ := Option.map_eq_some_iff.mp hsample
  obtain ⟨t, hone, -⟩ := honce.2.2.1 smp hsampled
  have htwice : [t] = [5, 100] := hone.symm.trans (Prod.mk.inj hsent).2
  cases htwice

end HdyUtils.Ltp
