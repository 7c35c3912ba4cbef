import HdyUtils.Ltp.Delivery
import HdyUtils.Ltp.Engine.Gathering
import HdyUtils.Ltp.Engine.KeptReports

/-! What a sender learns from reports.  Until a receive session delivers, all that is claimed for it is
a set `G` of octets that it has received, some octet of the red part is not in it, and a session that
is gone does not come back. -/

namespace HdyUtils.Ltp

open Runs

/-- The report claims that octet `x` was received. -/
def ReportSegment.Claims (rs : ReportSegment) (x : Nat) : Prop :=
  ∃ claim ∈ rs.claims, rs.lowerBound + claim.offset ≤ x ∧
    x < rs.lowerBound + claim.offset + claim.length

/-- The report claims octets of `G` only. -/
def ReportSegment.ClaimsIn (G : Set Nat) (rs : ReportSegment) : Prop := ∀ x, rs.Claims x → x ∈ G

theorem ReportSegment.Reports.claims_received {rs : ReportSegment} {received : RangeSet}
    {maxClaims upper : Nat} (h : rs.Reports received maxClaims upper) {x : Nat} (hx : rs.Claims x) :
    x ∈ received := by
  obtain ⟨claim, hclaim, hle, hlt⟩ := hx
  exact h.mem_received hclaim hle hlt

/-! ### The sender -/

/-- The sender records what a report claims, and no more. -/
theorem Engine.mem_recordClaims {redLen lowerBound : Nat} {claims : List ReceptionClaim}
    {received : RangeSet} {x : Nat} (hred : redLen < 2 ^ 64)
    (h : x ∈ recordClaims redLen lowerBound claims received) :
    x ∈ received ∨ ∃ claim ∈ claims, lowerBound + claim.offset ≤ x ∧
      x < lowerBound + claim.offset + claim.length := by
  induction claims generalizing received with
  | nil => exact .inl h
  | cons claim claims ih =>
    rw [recordClaims, List.foldl_cons, ← recordClaims] at h
    rcases ih h with hmem | ⟨c, hc, hx⟩
    · simp only at hmem
      split at hmem
      · rcases RangeSet.mem_insert.mp hmem with hold | ⟨hle, hlt⟩
        · exact .inl hold
        · refine .inr ⟨claim, List.mem_cons_self, ?_⟩
          simp only [satAdd, u64Max] at hle hlt
          omega
      · exact .inl hmem
    · exact .inr ⟨c, List.mem_cons_of_mem _ hc, hx⟩

section Send

variable {config : EngineConfig} {sid : SessionId} {G : Set Nat} {redLen : Nat}

/-- The sender has no claims but octets of `G`. -/
def SendSession.ClaimsIn (G : Set Nat) (s : SendSession) : Prop := ∀ x ∈ s.claimsReceived, x ∈ G

/-- What the reports claim is all that the sender has claims on, and a session that a report completes has
claims on all of its red part. -/
theorem SendMove.claimsIn {trigger : SendTrigger} {v v' : SendView} {p : List Push}
    {n : List Notice} (h : SendMove config sid trigger v p n v') (hred : redLen < 2 ^ 64)
    (hreport : ∀ source rs, trigger = .report source rs → rs.ClaimsIn G ∧
      ∀ s, v.session = some s → s.redLen = redLen)
    (hv : ∀ s, v.session = some s → s.ClaimsIn G) :
    (∀ s, v'.session = some s → s.ClaimsIn G) ∧
      (.transmissionSessionCompleted sid ∈ n →
        (∃ peer t, trigger = .request peer t ∧ t.redLen = 0) ∨
          (∃ source rs, trigger = .report source rs) ∧ v.session ≠ none ∧ ∀ x, x < redLen → x ∈ G) := by
  have hanswer : ∀ {source rs now s armed pushes spans s' armed'},
      SendAnswer config sid source rs now s armed pushes spans s' armed' → s.redLen = redLen →
      s.ClaimsIn G → rs.ClaimsIn G → s'.ClaimsIn G ∧ s'.redLen = redLen := by
    intro source rs now s armed pushes spans s' armed' hanswer hlen hs hrs
    have htransfer := hanswer.session.transfer_eq
    have hredLen : s'.redLen = s.redLen := congrArg Transfer.redLen htransfer
    refine ⟨fun x hx => ?_, hredLen.trans hlen⟩
    rw [hanswer.session.claims_eq] at hx
    rcases Engine.mem_recordClaims (hlen ▸ hred) hx with hold | hnew
    · exact hs x hold
    · exact hrs x hnew
  cases h with
  | @openGreen peer t v pushes spans hzero => exact ⟨hv, fun _ => .inl ⟨peer, t, rfl, hzero⟩⟩
  | @openRed t v pushes spans s armed _ _ _ hclaims =>
    refine ⟨?_, by simp⟩
    rintro s' ⟨⟩ x hx
    rw [hclaims] at hx
    exact absurd hx (RangeSet.not_mem_new x)
  | reportIgnored | expiredIdle | inactivityRearmed => exact ⟨hv, by simp⟩
  | @reportRepeated source rs now s =>
    refine ⟨?_, by simp⟩
    rintro s' ⟨⟩
    exact hv s rfl
  | @reportAnswered source rs now s armed pushes spans s' armed' h =>
    refine ⟨?_, by simp⟩
    rintro s₂ ⟨⟩
    obtain ⟨hrs, hlen⟩ := hreport source rs rfl
    exact (hanswer h (hlen s rfl) (hv s rfl) hrs).1
  | @reportCompleted source rs now s armed pushes spans s' armed' h hcomplete =>
    obtain ⟨hrs, hlen⟩ := hreport source rs rfl
    obtain ⟨hclaims, hs'⟩ := hanswer h (hlen s rfl) (hv s rfl) hrs
    refine ⟨by simp, fun _ => .inr ⟨⟨source, rs, rfl⟩, by simp, fun x hx => ?_⟩⟩
    -- a complete session has a claim on every octet of the red part
    rw [SendSession.isComplete, Bool.and_eq_true, RangeSet.covers_iff, hs'] at hcomplete
    exact hclaims x (hcomplete.2 x (Nat.zero_le x) hx)
  | @checkpointResent serial now s | @cancelResent now s =>
    refine ⟨?_, by simp⟩
    rintro s' ⟨⟩
    exact hv s rfl
  | @checkpointExhausted serial now s =>
    refine ⟨?_, by simp⟩
    rintro s' ⟨⟩
    exact hv s rfl
  | cancelAbandoned | inactivityExpired | peerCancelled | peerCancelledAgain | cancelAcked =>
    exact ⟨by simp, by simp⟩

end Send

/-! ### The receiver -/

/-- Of a session that has not delivered the red part of `t`: what it has received, and all that its
reports claim, is `G`, and `G` is not all of the red part. -/
structure RecvView.Lacks (t : Transfer) (G : Set Nat) (v : RecvView) : Prop where
  gap : ∃ x, x < t.redLen ∧ x ∉ G
  received : ∀ s, v.session = some s → s.cancelReason = none → ∀ x, x ∈ s.redReceived ↔ x ∈ G
  undelivered : ∀ s, v.session = some s → s.redDelivered = false
  keeps : ∀ s, v.session = some s → s.Keeps (ReportSegment.ClaimsIn G)
  gone : v.session = none → (∀ x, x ∉ G) ∨ v.cancelled
  unclosed : ¬v.closed

section Receive

variable {config : EngineConfig} {sid : SessionId} {t : Transfer} {G : Set Nat} {v : RecvView}
  {source : EngineId} {ds : DataSegment} {now : Nat} {s s' : RecvSession}
  {reports : List ReportSegment}

theorem RecvSession.Keeps.claimsIn_mono {G' : Set Nat} (h : s.Keeps (ReportSegment.ClaimsIn G))
    (hG : G ⊆ G') : s.Keeps (ReportSegment.ClaimsIn G') := fun serial rec hrec x hx =>
  hG (h serial rec hrec x hx)

/-- Data is admitted to a session that has received just `G`. -/
theorem RecvView.Lacks.admits (hv : v.Lacks t G) (h : Admits sid source ds now v s) :
    (∀ x, x ∈ (s.touched now).redReceived ↔ x ∈ G) ∧ (s.touched now).redDelivered = false ∧
      (s.touched now).Keeps (ReportSegment.ClaimsIn G) := by
  refine ⟨?_, ?_, h.keeps hv.keeps⟩
  · obtain ⟨-, hcancelled, ⟨hs, hopen⟩ | ⟨hnone, rfl⟩⟩ := h
    · exact hv.received s hs hopen
    · intro x
      exact iff_of_false (RangeSet.not_mem_new x) ((hv.gone hnone).resolve_right hcancelled x)
  · obtain ⟨-, -, ⟨hs, -⟩ | ⟨-, rfl⟩⟩ := h
    · exact hv.undelivered s hs
    · rfl

/-- A session that has all of the red part delivers it. -/
theorem RecvSession.Holds.deliverable (h : s.Holds t) (hpos : 0 < t.redLen)
    (hall : ∀ x, x < t.redLen → x ∈ s.redReceived) (hdelivered : s.redDelivered = false) :
    s.deliverable = true := by
  have hlast := h.last (hall (t.redLen - 1) (by omega))
  have hcomplete : s.isRedComplete = true := by
    simp only [isRedComplete, hlast]
    exact RangeSet.covers_iff.mpr fun x _ hx => hall x hx
  simp [RecvSession.deliverable, hcomplete, hdelivered]

theorem RecvSession.ackReport_redReceived (s : RecvSession) (serial : UInt64) :
    (s.ackReport serial).redReceived = s.redReceived := by
  unfold ackReport
  split <;> rfl

theorem RecvSession.delivered_redReceived (s : RecvSession) :
    s.delivered.redReceived = s.redReceived := by
  unfold delivered
  split <;> rfl

theorem RecvSession.delivered_of_not (h : ¬s.deliverable = true) : s.delivered = s := if_neg h

/-- The notices of a session that delivers include the delivery. -/
theorem RecvSession.mem_deliveryNotices (h : s.deliverable = true) (sid : SessionId)
    (source : EngineId) : ∃ x ∈ s.deliveryNotices sid source, x.isDelivery = true := by
  rw [deliveryNotices, if_pos h]
  exact ⟨_, List.mem_singleton_self _, rfl⟩

/-- Storing data adds to `G` what it adds to the session. -/
theorem Stores.lacks (h : Stores config ds s s' reports) (hcut : ds.Cuts t) (ht : t.Valid)
    (hs : s.Holds t) (hG : ∀ x, x ∈ s.redReceived ↔ x ∈ G)
    (hkeeps : s.Keeps (ReportSegment.ClaimsIn G)) :
    G ⊆ {x | x ∈ s'.redReceived} ∧
      (∀ r ∈ reports, r.ClaimsIn {x | x ∈ s'.redReceived}) ∧
      s'.Keeps (ReportSegment.ClaimsIn {x | x ∈ s'.redReceived}) := by
  have hgrows : G ⊆ {x | x ∈ s'.redReceived} := fun x hx =>
    ((h.holds hcut ht hs).2 x).mpr (.inl ((hG x).mpr hx))
  exact ⟨hgrows, h.keeps (hkeeps.claimsIn_mono hgrows) fun r _ hr x hx => hr.claims_received hx⟩

/-- A session that has received just `G`, not delivered, and reported nothing else. -/
theorem RecvView.lacks_some {armed : Set TimerKind} {closed cancelled : Prop}
    (hgap : ∃ x, x < t.redLen ∧ x ∉ G)
    (hreceived : s.cancelReason = none → ∀ x, x ∈ s.redReceived ↔ x ∈ G)
    (hdelivered : s.redDelivered = false) (hkeeps : s.Keeps (ReportSegment.ClaimsIn G))
    (hunclosed : ¬closed) : RecvView.Lacks t G ⟨some s, armed, closed, cancelled⟩ := by
  refine ⟨hgap, ?_, ?_, ?_, by simp, hunclosed⟩
  · rintro s₂ ⟨⟩
    exact hreceived
  · rintro s₂ ⟨⟩
    exact hdelivered
  · rintro s₂ ⟨⟩
    exact hkeeps

/-- Given data of `t` only, the session delivers, or it lacks a part of `t` still and its reports
claim nothing else. -/
theorem RecvMove.lacks {trigger : RecvTrigger} {v v' : RecvView} {p : List Push} {n : List Notice}
    (h : RecvMove config sid trigger v p n v') (ht : t.Valid)
    (hcut : ∀ source ds now, trigger = .data source ds now → ds.Cuts t)
    (hholds : ∀ s, v.session = some s → s.Holds t) (hv : v.Lacks t G) :
    (∃ x ∈ n, x.isDelivery = true) ∨ ∃ G', G ⊆ G' ∧ v'.Lacks t G' ∧
      ∀ x ∈ p, ∀ rs, x.2 = .report rs → rs.ClaimsIn G' := by
  -- A session that changes in nothing that matters here.
  have hsame : ∀ {s s' : RecvSession} {armed armed' : Set TimerKind} {closed cancelled : Prop},
      v = ⟨some s, armed, closed, cancelled⟩ → s'.redReceived = s.redReceived →
      s'.redDelivered = s.redDelivered → s'.Keeps (ReportSegment.ClaimsIn G) →
      (s'.cancelReason = none → s.cancelReason = none) →
      RecvView.Lacks t G ⟨some s', armed', closed, cancelled⟩ := by
    rintro s s' armed armed' closed cancelled rfl hreceived hdelivered hkeeps hopen
    refine RecvView.lacks_some hv.gap (fun hs₂ x => ?_) (hdelivered.trans (hv.undelivered s rfl))
      hkeeps hv.unclosed
    rw [hreceived]
    exact hv.received s rfl (hopen hs₂) x
  -- A session that is gone for good.
  have hgone : RecvView.Lacks t G ⟨none, ∅, v.closed, True⟩ :=
    ⟨hv.gap, by simp, by simp, by simp, fun _ => .inr trivial, hv.unclosed⟩
  cases h with
  | dataIgnored | expiredIdle => exact .inr ⟨G, subset_rfl, hv, by simp⟩
  | dataReported hclosed => exact absurd hclosed hv.unclosed
  | @dataCancelled source ds now v s s' reports reason armed hadmits hspoils =>
    obtain ⟨hG, hdelivered, hkeeps⟩ := hv.admits hadmits
    have hcancelled : ∀ {G' : Set Nat}, (∃ x, x < t.redLen ∧ x ∉ G') → s'.redDelivered = false →
        s'.Keeps (ReportSegment.ClaimsIn G') →
        RecvView.Lacks t G' ⟨some (s'.cancelling reason), armed, v.closed, True⟩ := by
      intro G' hgap hdel hkeeps'
      exact RecvView.lacks_some hgap nofun hdel hkeeps' hv.unclosed
    have hpushes : ∀ {G' : Set Nat}, (∀ r ∈ reports, r.ClaimsIn G') →
        ∀ x ∈ reportPushes source reports ++ [(source, .cancelReceiver reason)],
          ∀ rs, x.2 = .report rs → rs.ClaimsIn G' := by
      intro G' hreports x hx rs hrs
      rcases List.mem_append.mp hx with hx | hx
      · exact reportPushes_spec hreports x hx rs hrs
      · rw [List.mem_singleton.mp hx] at hrs
        cases hrs
    cases hspoils with
    | untouched | green =>
      exact .inr ⟨G, subset_rfl, hcancelled hv.gap hdelivered hkeeps, hpushes (by simp)⟩
    | stored hstores hgap =>
      have hdel : s'.redDelivered = false := hstores.redDelivered_eq.trans hdelivered
      by_cases hnone : reports = []
      · subst hnone
        have hkept := (hstores.keeps hkeeps (by simp)).2
        exact .inr ⟨G, subset_rfl, hcancelled hv.gap hdel hkept, hpushes (by simp)⟩
      · have hds := hcut source ds now rfl
        obtain ⟨hgrows, hreports, hkept⟩ := hstores.lacks hds ht
          (hadmits.holds hds hholds) hG hkeeps
        obtain ⟨x, hx, hnot⟩ := hgap hnone
        have hend : ds.segEnd ≤ t.redLen := by
          have hle := (hds.red hstores.red).2
          simp only [DataSegment.segEnd, satAdd]
          omega
        exact .inr ⟨_, hgrows, hcancelled ⟨x, lt_of_lt_of_le hx hend, hnot⟩ hdel hkept,
          hpushes hreports⟩
  | @dataRefused source ds now v s s' armed hadmits _ hrefused =>
    obtain ⟨hG, hdelivered, hkeeps⟩ := hv.admits hadmits
    obtain ⟨maxRedEnd, rfl⟩ := RecvSession.insertRed_refused hrefused
    exact .inr ⟨G, subset_rfl,
      RecvView.lacks_some hv.gap (fun _ => hG) hdelivered hkeeps hv.unclosed, by simp⟩
  | @dataStored source ds now v s s' reports armed hadmits hstores =>
    obtain ⟨hG, hdelivered, hkeeps⟩ := hv.admits hadmits
    have hds := hcut source ds now rfl
    have hs := hadmits.holds hds hholds
    have hs' := (hstores.holds hds ht hs).1
    have hdel : s'.redDelivered = false := hstores.redDelivered_eq.trans hdelivered
    by_cases hdeliver : s'.deliverable = true
    · exact .inl (RecvSession.mem_deliveryNotices hdeliver sid source)
    obtain ⟨hgrows, hreports, hkept⟩ := hstores.lacks hds ht hs hG hkeeps
    have hpos : 0 < t.redLen := by
      have hlen := hds.red hstores.red
      omega
    have hgap : ∃ x, x < t.redLen ∧ x ∉ {x | x ∈ s'.redReceived} := by
      by_contra hall
      push Not at hall
      exact hdeliver (hs'.deliverable hpos hall hdel)
    rw [RecvSession.delivered_of_not hdeliver]
    exact .inr ⟨_, hgrows,
      RecvView.lacks_some hgap (fun _ _ => Iff.rfl) hdel hkept hv.unclosed,
      reportPushes_spec hreports⟩
  | @dataGreen source ds now v s armed hadmits =>
    obtain ⟨hG, hdelivered, hkeeps⟩ := hv.admits hadmits
    by_cases hdeliver : ((s.touched now).markGreen ds).deliverable = true
    · obtain ⟨x, hx, hdelivery⟩ := RecvSession.mem_deliveryNotices hdeliver sid source
      exact .inl ⟨x, List.mem_cons_of_mem _ hx, hdelivery⟩
    rw [RecvSession.delivered_of_not hdeliver]
    exact .inr ⟨G, subset_rfl,
      RecvView.lacks_some hv.gap (fun _ => hG) hdelivered hkeeps hv.unclosed, by simp⟩
  | ackIgnored =>
    exact .inr ⟨G, subset_rfl, ⟨hv.gap, hv.received, hv.undelivered, hv.keeps, hv.gone, hv.unclosed⟩,
      by simp⟩
  | @ackKept serial now s armed armed' closed cancelled hopen =>
    have htouched : (s.touched now).Keeps (ReportSegment.ClaimsIn G) := (hv.keeps s rfl).congr rfl
    have hreceived := (s.touched now).ackReport_redReceived serial
    exact .inr ⟨G, subset_rfl, hsame rfl hreceived
      (ackReport_redDelivered (s.touched now) serial) (htouched.ackReport serial) fun _ => hopen,
      by simp⟩
  | @ackClosed serial now s armed closed cancelled hopen hsettled =>
    -- a session that is settled was delivered
    simp only [RecvSession.settled, Bool.and_eq_true] at hsettled
    have hdelivered := hsettled.1.2
    rw [ackReport_redDelivered] at hdelivered
    exact absurd ((hv.undelivered s rfl).symm.trans hdelivered) (by simp)
  | @reportResent serial now s rec armed closed cancelled hrec =>
    have hreport : ({ rec with retries := rec.retries + 1 } : ReportRecord).report = rec.report := rfl
    refine .inr ⟨G, subset_rfl, hsame rfl rfl rfl ((hv.keeps s rfl).putReport hrec hreport rfl)
      fun h => h, fun x hx rs hrs => ?_⟩
    rw [List.mem_singleton.mp hx] at hrs
    cases hrs
    exact hv.keeps s rfl serial rec hrec
  | @reportExhausted serial now s | @cancelResent now s =>
    refine .inr ⟨G, subset_rfl, hsame rfl rfl rfl ((hv.keeps s rfl).congr rfl) ?_, by simp⟩
    first
    | exact fun h => h
    | intro h
      cases h
  | inactivityRearmed =>
    exact .inr ⟨G, subset_rfl, hsame rfl rfl rfl (hv.keeps _ rfl) fun h => h, by simp⟩
  | cancelAbandoned | inactivityExpired | peerCancelled | peerCancelledAgain | cancelAcked =>
    exact .inr ⟨G, subset_rfl, hgone, by simp⟩

end Receive

end HdyUtils.Ltp
