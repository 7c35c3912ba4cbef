import HdyUtils.Lib.Sums
import HdyUtils.Lib.Trace
import HdyUtils.Ping.App

/-! The replies that `dtnping` counts, in runs in which the loop of `main` and the deliveries take
their steps in any order.  A ping is recorded after it has been handed to the BPA; a reply that comes
in between is not counted. -/

namespace HdyUtils.Ping

open Security Trace

/-- The counts are those of replies that took these times. -/
structure PingState.Sums (s : PingState) (rtts : List Duration) : Prop where
  received : s.received = rtts.length
  minRtt : s.minRtt = rtts.min?
  maxRtt : s.maxRtt = rtts.max?
  sumRtt : s.sumRtt = rtts.sum
  sumRttSquaredUs : s.sumRttSquaredUs = (rtts.map fun rtt => rtt / 1000 * (rtt / 1000)).sum

theorem PingState.Sums.count {s : PingState} {rtts : List Duration} (h : s.Sums rtts) (seqNo : Nat)
    (rtt : Duration) : (s.count seqNo rtt).Sums (rtts ++ [rtt]) where
  received := by simp [PingState.count, h.received]
  minRtt := by
    rw [PingState.count, h.minRtt]
    cases rtts with
    | nil => rfl
    | cons first rest => simp only [List.cons_append, List.min?_cons', List.foldl_append]; rfl
  maxRtt := by
    rw [PingState.count, h.maxRtt]
    cases rtts with
    | nil => rfl
    | cons first rest => simp only [List.cons_append, List.max?_cons', List.foldl_append]; rfl
  sumRtt := by simp [PingState.count, h.sumRtt]
  sumRttSquaredUs := by simp [PingState.count, h.sumRttSquaredUs]

/-! ### Runs -/

inductive Event
  | send (sendTime : Instant)
  | finish (ok : Bool)
  | deliver (receiveTime : Instant) (data : Bytes)

/-- `main` with what is seen of it from outside: the send time of each ping that was handed over, the
replies that were delivered, and those that were counted with their times. -/
structure Session where
  main : Main
  handed : List Instant
  replies : List (Nat × Instant)
  counted : List (Nat × Duration)

namespace Session

def start (limit : UInt32) : Session where
  main := .start limit
  handed := []
  replies := []
  counted := []

section Step

variable {E : Type} [DecidableEq E] (hardy : Hardy E) (null : E) (app : PingApp E)

def deliver (s : Session) (receiveTime : Instant) (data : Bytes) : Session :=
  let (state, reply) := app.onDeliver hardy null receiveTime data s.main.state
  { s with
    main := { s.main with state }
    replies := s.replies ++ (app.replySeqNo hardy null data).toList.map fun seqNo =>
      (seqNo, receiveTime)
    counted := s.counted ++ reply.toList }

def step (s : Session) : Event → Session
  | .send sendTime =>
    { s with
      main := s.main.send sendTime
      handed := if s.main.sending.isNone ∧ s.main.seq < s.main.limit.toNat then
        s.handed ++ [sendTime] else s.handed }
  | .finish ok => { s with main := s.main.finish ok }
  | .deliver receiveTime data => s.deliver hardy null app receiveTime data

/-- A reply is delivered only when its ping has been recorded. -/
def Timely (s : Session) : Event → Prop
  | .deliver _ data => ∀ seqNo, app.replySeqNo hardy null data = some seqNo →
    seqNo ∈ s.main.state.sentTimes ∨ seqNo ∈ s.main.state.replied
  | _ => True

end Step

/-- The loop of `main` is not between handing over a ping and recording it. -/
def Settled (s : Session) : Prop := s.main.sending = none

/-- Every reply is counted once: there are as many as pings that were replied to, and the time of each
is that of the first reply to its ping. -/
structure Tallies (s : Session) : Prop where
  received : s.main.state.received = (s.replies.map Prod.fst).toFinset.card
  received_le : s.main.state.received ≤ s.main.state.sent
  once : (s.counted.map Prod.fst).Nodup
  sums : s.main.state.Sums (s.counted.map Prod.snd)
  rtts : ∀ reply ∈ s.counted, ∃ sendTime deliveryTime, s.handed[reply.1]? = some sendTime ∧
    s.replies.lookup reply.1 = some deliveryTime ∧ reply.2 = deliveryTime - sendTime

/-- What holds in every run: the pings below `seq` are done, those whose times are kept wait for their
replies, and the counted ones do not. -/
structure Sound (s : Session) : Prop where
  handed : s.handed.length = s.main.seq + s.main.sending.toList.length
  sending : ∀ sendTime, s.main.sending = some sendTime → s.handed[s.main.seq]? = some sendTime
  times : ∀ seqNo sendTime, s.main.state.sentTimes[seqNo]? = some sendTime →
    seqNo < s.main.seq ∧ s.handed[seqNo]? = some sendTime
  replied : ∀ seqNo, seqNo ∈ s.main.state.replied ↔ seqNo ∈ s.counted.map Prod.fst
  replied_lt : ∀ seqNo ∈ s.main.state.replied, seqNo < s.main.seq
  apart : ∀ seqNo ∈ s.main.state.replied, s.main.state.sentTimes[seqNo]? = none
  delivered : ∀ seqNo ∈ s.main.state.replied, seqNo ∈ s.replies.map Prod.fst
  once : (s.counted.map Prod.fst).Nodup
  sent : s.main.state.sent = s.counted.length + s.main.state.sentTimes.size
  sums : s.main.state.Sums (s.counted.map Prod.snd)

/-- No reply was missed: every ping that was replied to is counted, with its first reply. -/
structure Kept (s : Session) : Prop where
  replied : ∀ seqNo ∈ s.replies.map Prod.fst, seqNo ∈ s.main.state.replied
  rtts : ∀ reply ∈ s.counted, ∃ sendTime deliveryTime, s.handed[reply.1]? = some sendTime ∧
    s.replies.lookup reply.1 = some deliveryTime ∧ reply.2 = deliveryTime - sendTime

/-- A reply to a ping that is not recorded was missed. -/
def Missed (s : Session) : Prop :=
  ∃ seqNo ∈ s.replies.map Prod.fst, seqNo ∉ s.main.state.replied ∧
    s.main.state.sentTimes[seqNo]? = none

variable {s : Session}

/-! ### What one step does -/

theorem sound_start (limit : UInt32) : (start limit).Sound := by
  constructor <;> simp [start, Main.start, PingState.new]
  constructor <;> rfl

theorem kept_start (limit : UInt32) : (start limit).Kept := by
  constructor <;> simp [start]

theorem Sound.lt_handed (h : s.Sound) {seqNo : Nat} (hlt : seqNo < s.main.seq) :
    seqNo < s.handed.length := by
  rw [h.handed]
  omega

section Step

variable {E : Type} [DecidableEq E] {hardy : Hardy E} {null : E} {app : PingApp E}

theorem Sound.send (h : s.Sound) (sendTime : Instant) :
    (s.step hardy null app (.send sendTime)).Sound := by
  simp only [step, Main.send]
  split
  · next hready =>
    have hnone : s.main.sending = none := Option.isNone_iff_eq_none.mp hready.1
    have hlen : s.handed.length = s.main.seq := by simpa [hnone] using h.handed
    refine { h with handed := ?_, sending := ?_, times := ?_ }
    · simp [hlen]
    · intro time htime
      cases htime
      simp [hlen]
    · intro seqNo time htime
      obtain ⟨hlt, hhanded⟩ := h.times seqNo time htime
      refine ⟨hlt, ?_⟩
      rw [List.getElem?_append_left (h.lt_handed hlt)]
      exact hhanded
  · exact h

theorem Sound.finish (h : s.Sound) (ok : Bool) : (s.step hardy null app (.finish ok)).Sound := by
  simp only [step, Main.finish]
  cases hsending : s.main.sending with
  | none => exact h
  | some sendTime =>
    have hlen : s.handed.length = s.main.seq + 1 := by simpa [hsending] using h.handed
    have hfresh : s.main.state.sentTimes[s.main.seq]? = none := by
      by_contra hne
      obtain ⟨time, htime⟩ := Option.ne_none_iff_exists'.mp hne
      exact lt_irrefl _ (h.times _ time htime).1
    cases ok with
    | false =>
      refine { h with handed := ?_, sending := nofun, times := ?_, replied_lt := ?_ }
      · simpa using hlen
      · intro seqNo time htime
        exact ⟨(h.times seqNo time htime).1.trans (Nat.lt_succ_self _), (h.times seqNo time htime).2⟩
      · intro seqNo hmem
        exact (h.replied_lt seqNo hmem).trans (Nat.lt_succ_self _)
    | true =>
      refine { h with handed := ?_, sending := nofun, times := ?_, replied_lt := ?_, apart := ?_,
                      sent := ?_, sums := ⟨h.sums.1, h.sums.2, h.sums.3, h.sums.4, h.sums.5⟩ }
      · simpa using hlen
      · intro seqNo time htime
        simp only [PingState.record, if_true, Maps.getElem?_insert] at htime
        split at htime
        · next heq =>
          cases htime
          exact heq ▸ ⟨Nat.lt_succ_self _, h.sending sendTime hsending⟩
        · exact ⟨(h.times seqNo time htime).1.trans (Nat.lt_succ_self _),
            (h.times seqNo time htime).2⟩
      · intro seqNo hmem
        exact (h.replied_lt seqNo hmem).trans (Nat.lt_succ_self _)
      · intro seqNo hmem
        have hne : ¬s.main.seq = seqNo := (h.replied_lt seqNo hmem).ne'
        simp only [PingState.record, if_true, Maps.getElem?_insert, if_neg hne]
        exact h.apart seqNo hmem
      · simp only [PingState.record, if_true, h.sent, Maps.size_insert_of_none hfresh]
        omega

variable (hardy null app) in
/-- A delivery in the three cases of `on_deliver`: no reply, a reply to a ping without a send time, and
a reply that is counted. -/
theorem deliver_cases (s : Session) (receiveTime : Instant) (data : Bytes) :
    (app.replySeqNo hardy null data = none ∧ s.deliver hardy null app receiveTime data = s) ∨
    ∃ seqNo, app.replySeqNo hardy null data = some seqNo ∧
      ((s.main.state.sentTimes[seqNo]? = none ∧ s.deliver hardy null app receiveTime data =
        { s with replies := s.replies ++ [(seqNo, receiveTime)] }) ∨
      ∃ sendTime, s.main.state.sentTimes[seqNo]? = some sendTime ∧
        s.deliver hardy null app receiveTime data =
        { s with
          main := { s.main with
            state := { s.main.state with sentTimes := s.main.state.sentTimes.erase seqNo }.count
              seqNo (receiveTime - sendTime) }
          replies := s.replies ++ [(seqNo, receiveTime)]
          counted := s.counted ++ [(seqNo, receiveTime - sendTime)] }) := by
  unfold deliver PingApp.onDeliver
  cases hreply : app.replySeqNo hardy null data with
  | none => exact .inl ⟨rfl, by simp⟩
  | some seqNo =>
    refine .inr ⟨seqNo, rfl, ?_⟩
    cases htime : s.main.state.sentTimes[seqNo]? with
    | none => exact .inl ⟨rfl, by simp [htime]⟩
    | some sendTime => exact .inr ⟨sendTime, rfl, by simp [htime]⟩

theorem Sound.deliver (h : s.Sound) (receiveTime : Instant) (data : Bytes) :
    (s.deliver hardy null app receiveTime data).Sound := by
  rcases deliver_cases hardy null app s receiveTime data with
    ⟨-, heq⟩ | ⟨seqNo, -, ⟨-, heq⟩ | ⟨sendTime, htime, heq⟩⟩
  · rw [heq]
    exact h
  · rw [heq]
    refine { h with delivered := fun k hk => ?_ }
    rw [List.map_append, List.mem_append]
    exact .inl (h.delivered k hk)
  · rw [heq]
    have hnew : seqNo ∉ s.main.state.replied := by
      intro hmem
      rw [h.apart seqNo hmem] at htime
      cases htime
    have hsize := Maps.size_erase_of_some htime
    refine { h with times := ?_, replied := ?_, replied_lt := ?_, apart := ?_, delivered := ?_,
                    once := ?_, sent := ?_, sums := ?_ }
    · intro k time hk
      simp only [PingState.count, Maps.getElem?_erase] at hk
      split at hk
      · cases hk
      · exact h.times k time hk
    · intro k
      simp only [PingState.count, Maps.mem_insert, List.map_append, List.mem_append, h.replied k]
      simp [or_comm, eq_comm]
    · intro k hk
      rcases (Maps.mem_insert _ _ _).mp hk with rfl | hold
      · exact (h.times _ _ htime).1
      · exact h.replied_lt k hold
    · intro k hk
      simp only [PingState.count, Maps.getElem?_erase]
      split
      · rfl
      · next hne =>
        exact h.apart k (((Maps.mem_insert _ _ _).mp hk).resolve_left hne)
    · intro k hk
      rw [List.map_append, List.mem_append]
      rcases (Maps.mem_insert _ _ _).mp hk with rfl | hold
      · exact .inr (by simp)
      · exact .inl (h.delivered k hold)
    · rw [List.map_append, List.map_singleton, ← List.concat_eq_append, List.nodup_concat]
      exact ⟨fun hmem => hnew ((h.replied seqNo).mpr hmem), h.once⟩
    · simp only [PingState.count, h.sent, hsize, List.length_append, List.length_singleton]
      omega
    · have hsums : { s.main.state with
          sentTimes := s.main.state.sentTimes.erase seqNo }.Sums (s.counted.map Prod.snd) :=
        ⟨h.sums.1, h.sums.2, h.sums.3, h.sums.4, h.sums.5⟩
      have hcount := hsums.count seqNo (receiveTime - sendTime)
      rwa [← List.map_singleton (f := Prod.snd) (a := (seqNo, receiveTime - sendTime)),
        ← List.map_append] at hcount

theorem Sound.step (h : s.Sound) (e : Event) : (s.step hardy null app e).Sound := by
  cases e with
  | send sendTime => exact h.send sendTime
  | finish ok => exact h.finish ok
  | deliver receiveTime data => exact h.deliver receiveTime data

theorem Kept.step (h : s.Kept) (hsound : s.Sound) {e : Event} (hok : s.Timely hardy null app e) :
    (s.step hardy null app e).Kept := by
  cases e with
  | finish ok =>
    simp only [Session.step, Main.finish]
    cases s.main.sending with
    | none => exact h
    | some sendTime => cases ok <;> exact ⟨h.replied, h.rtts⟩
  | send sendTime =>
    have hreplied : (s.main.send sendTime).state = s.main.state := by
      unfold Main.send
      split <;> rfl
    refine ⟨?_, fun reply hmem => ?_⟩
    · simp only [Session.step, hreplied]
      exact h.replied
    · obtain ⟨sent, delivered, hhanded, hlookup, heq⟩ := h.rtts reply hmem
      refine ⟨sent, delivered, ?_, hlookup, heq⟩
      simp only [Session.step]
      split
      · rw [List.getElem?_append_left (List.getElem?_eq_some_iff.mp hhanded).1]
        exact hhanded
      · exact hhanded
  | deliver receiveTime data =>
    rcases deliver_cases hardy null app s receiveTime data with
      ⟨-, heq⟩ | ⟨seqNo, hreply, ⟨htime, heq⟩ | ⟨sendTime, htime, heq⟩⟩
    · rw [Session.step, heq]
      exact h
    · -- a ping that is recorded and has no send time was replied to before
      have hreplied : seqNo ∈ s.main.state.replied := by
        refine (hok seqNo hreply).resolve_left fun hmem => ?_
        rw [Std.TreeMap.mem_iff_isSome_getElem?, htime] at hmem
        cases hmem
      rw [Session.step, heq]
      refine ⟨fun k hk => ?_, fun reply hmem => ?_⟩
      · rw [List.map_append, List.mem_append] at hk
        rcases hk with hold | hnew
        · exact h.replied k hold
        · rw [List.map_singleton, List.mem_singleton] at hnew
          exact hnew ▸ hreplied
      · obtain ⟨sent, delivered, hhanded, hlookup, heq⟩ := h.rtts reply hmem
        refine ⟨sent, delivered, hhanded, ?_, heq⟩
        rw [List.lookup_append, hlookup]
        rfl
    · have hfirst : s.replies.lookup seqNo = none := by
        by_contra hne
        obtain ⟨time, hlookup⟩ := Option.ne_none_iff_exists'.mp hne
        obtain ⟨before, after, hsplit, -⟩ := List.lookup_eq_some_iff.mp hlookup
        have hmem : seqNo ∈ s.main.state.replied := h.replied seqNo (by simp [hsplit])
        rw [hsound.apart seqNo hmem] at htime
        cases htime
      rw [Session.step, heq]
      refine ⟨fun k hk => ?_, fun reply hmem => ?_⟩
      · rw [List.map_append, List.mem_append] at hk
        rcases hk with hold | hnew
        · exact (Maps.mem_insert _ _ _).mpr (.inr (h.replied k hold))
        · rw [List.map_singleton, List.mem_singleton] at hnew
          exact (Maps.mem_insert _ _ _).mpr (.inl hnew.symm)
      · rcases List.mem_append.mp hmem with hold | hnew
        · obtain ⟨sent, delivered, hhanded, hlookup, heq⟩ := h.rtts reply hold
          refine ⟨sent, delivered, hhanded, ?_, heq⟩
          rw [List.lookup_append, hlookup]
          rfl
        · rw [List.mem_singleton] at hnew
          subst hnew
          refine ⟨sendTime, receiveTime, (hsound.times seqNo sendTime htime).2, ?_, rfl⟩
          rw [List.lookup_append, hfirst]
          simp

/-! ### Missed replies -/

theorem missed_of_not_timely {e : Event} (hok : ¬s.Timely hardy null app e) :
    (s.step hardy null app e).Missed := by
  cases e with
  | send sendTime => exact absurd trivial hok
  | finish ok => exact absurd trivial hok
  | deliver receiveTime data =>
    simp only [Timely, not_forall, not_or] at hok
    obtain ⟨seqNo, hreply, htimes, hreplied⟩ := hok
    have hnone : s.main.state.sentTimes[seqNo]? = none := by
      rwa [Std.TreeMap.mem_iff_isSome_getElem?, Option.not_isSome_iff_eq_none] at htimes
    rcases deliver_cases hardy null app s receiveTime data with
      ⟨hother, -⟩ | ⟨k, hother, ⟨-, heq⟩ | ⟨sendTime, htime, -⟩⟩
    · rw [hreply] at hother
      cases hother
    · rw [hreply] at hother
      cases hother
      rw [Session.step, heq]
      exact ⟨seqNo, by simp, hreplied, hnone⟩
    · rw [hreply] at hother
      cases hother
      rw [hnone] at htime
      cases htime

variable (hardy null app) in
/-- A reply that was missed is still missed after the step, or its ping has just been recorded. -/
theorem Missed.step (h : s.Missed) (hsending : ¬s.Settled) (e : Event) :
    (s.step hardy null app e).Missed ∨ (s.step hardy null app e).Settled ∧
      ∃ seqNo ∈ (s.step hardy null app e).replies.map Prod.fst,
        seqNo ∉ (s.step hardy null app e).main.state.replied := by
  obtain ⟨seqNo, hmem, hreplied, hnone⟩ := h
  cases e with
  | send sendTime =>
    have hstate : (s.main.send sendTime).state = s.main.state := by
      unfold Main.send
      split <;> rfl
    exact .inl ⟨seqNo, hmem, by rwa [Session.step, hstate], by rwa [Session.step, hstate]⟩
  | finish ok =>
    obtain ⟨sendTime, hsome⟩ := Option.ne_none_iff_exists'.mp hsending
    refine .inr ⟨?_, seqNo, hmem, ?_⟩
    · simp only [Settled, Session.step, Main.finish, hsome]
    · simp only [Session.step, Main.finish, hsome]
      cases ok <;> exact hreplied
  | deliver receiveTime data =>
    rcases deliver_cases hardy null app s receiveTime data with
      ⟨-, heq⟩ | ⟨k, -, ⟨-, heq⟩ | ⟨sendTime, htime, heq⟩⟩
    · rw [Session.step, heq]
      exact .inl ⟨seqNo, hmem, hreplied, hnone⟩
    · rw [Session.step, heq]
      refine .inl ⟨seqNo, ?_, hreplied, hnone⟩
      rw [List.map_append]
      exact List.mem_append_left _ hmem
    · have hne : ¬k = seqNo := by
        rintro rfl
        rw [hnone] at htime
        cases htime
      rw [Session.step, heq]
      refine .inl ⟨seqNo, ?_, ?_, ?_⟩
      · rw [List.map_append]
        exact List.mem_append_left _ hmem
      · intro hin
        exact ((Maps.mem_insert _ _ _).mp hin).elim hne hreplied
      · simp only [PingState.count, Maps.getElem?_erase, if_neg hne]
        exact hnone

end Step

/-! ### What is counted -/

theorem Sound.card_counted (h : s.Sound) :
    (s.counted.map Prod.fst).toFinset.card = s.main.state.received := by
  rw [List.toFinset_card_of_nodup h.once, h.sums.received, List.length_map, List.length_map]

theorem Sound.tallies (h : s.Sound) (hkept : s.Kept) : s.Tallies where
  received := by
    rw [← h.card_counted]
    congr 1
    ext seqNo
    rw [List.mem_toFinset, List.mem_toFinset, ← h.replied]
    exact ⟨h.delivered seqNo, hkept.replied seqNo⟩
  received_le := by
    rw [h.sums.received, h.sent, List.length_map]
    omega
  once := h.once
  sums := h.sums
  rtts := hkept.rtts

theorem Sound.not_tallies (h : s.Sound) {seqNo : Nat} (hmem : seqNo ∈ s.replies.map Prod.fst)
    (hreplied : seqNo ∉ s.main.state.replied) : ¬s.Tallies := by
  intro htallies
  have hlt : (s.counted.map Prod.fst).toFinset.card < (s.replies.map Prod.fst).toFinset.card := by
    apply Finset.card_lt_card
    rw [Finset.ssubset_iff_of_subset]
    · refine ⟨seqNo, List.mem_toFinset.mpr hmem, ?_⟩
      rwa [List.mem_toFinset, ← h.replied]
    · intro k hk
      rw [List.mem_toFinset, ← h.replied] at hk
      exact List.mem_toFinset.mpr (h.delivered k hk)
  rw [h.card_counted, ← htallies.received] at hlt
  exact lt_irrefl _ hlt

section Step

variable {E : Type} [DecidableEq E] {hardy : Hardy E} {null : E} {app : PingApp E}

/-- Once a reply was missed, the counts are wrong as soon as the loop has recorded its ping. -/
theorem Missed.not_along {events : List Event} (h : s.Missed) (hsound : s.Sound)
    (hend : (run (Session.step hardy null app) s events).Settled) :
    ¬((s.Settled → s.Tallies) ∧ Along (Session.step hardy null app)
      (fun s e => (s.step hardy null app e).Settled → (s.step hardy null app e).Tallies) s events) := by
  induction events generalizing s with
  | nil =>
    obtain ⟨seqNo, hmem, hreplied, -⟩ := h
    exact fun hall => hsound.not_tallies hmem hreplied (hall.1 hend)
  | cons e events ih =>
    rintro ⟨hnow, hnext, hrest⟩
    by_cases hsettled : s.Settled
    · obtain ⟨seqNo, hmem, hreplied, -⟩ := h
      exact hsound.not_tallies hmem hreplied (hnow hsettled)
    rcases h.step hardy null app hsettled e with hmissed | ⟨hsettled', seqNo, hmem, hreplied⟩
    · exact ih hmissed (hsound.step e) hend ⟨hnext, hrest⟩
    · exact (hsound.step e).not_tallies hmem hreplied (hnext hsettled')

theorem along_timely_iff {events : List Event} (hsound : s.Sound) (hkept : s.Kept)
    (hend : (run (step hardy null app) s events).Settled) :
    Along (step hardy null app) (Timely hardy null app) s events ↔ Along (step hardy null app)
      (fun s e => (s.step hardy null app e).Settled → (s.step hardy null app e).Tallies) s events := by
  induction events generalizing s with
  | nil => exact Iff.rfl
  | cons e events ih =>
    by_cases hok : s.Timely hardy null app e
    · have hsound' : (s.step hardy null app e).Sound := hsound.step e
      have hkept' := hkept.step hsound hok
      exact ⟨fun hall => ⟨fun _ => hsound'.tallies hkept', (ih hsound' hkept' hend).mp hall.2⟩,
        fun hall => ⟨hok, (ih hsound' hkept' hend).mpr hall.2⟩⟩
    · refine iff_of_false (fun hall => hok hall.1) fun hall => ?_
      exact (missed_of_not_timely hok).not_along (hsound.step e) hend hall

end Step

end Session

/-- Whenever the loop of `main` is between two pings, every reply has been counted once, exactly if no
reply comes before its ping is recorded. -/
theorem replies_counted_iff {E : Type} [DecidableEq E] (hardy : Hardy E) (null : E) (app : PingApp E)
    (limit : UInt32) (events : List Event)
    (hend : (run (Session.step hardy null app) (.start limit) events).Settled) :
    Along (Session.step hardy null app) (Session.Timely hardy null app) (.start limit) events ↔
      Along (Session.step hardy null app)
        (fun s e => (s.step hardy null app e).Settled → (s.step hardy null app e).Tallies)
        (.start limit) events :=
  Session.along_timely_iff (Session.sound_start limit) (Session.kept_start limit) hend

/-- The bundle `[0x9F]` is an unsigned reply to the ping 0. -/
def echoHardy : Hardy String where
  eidString eid := eid
  parseEid s := .ok s
  parse
    | [0x9F] => .ok
      { data := [0x9F]
        bundle :=
          { primary :=
              { source := "ipn:2.7", timestamp := ⟨none, 0⟩, fragment := none, flags := 0,
                destination := "ipn:1.7", reportTo := "dtn:none", lifetime := 3600 }
            blocks := [(1, ⟨.payload, some [0x82, 0x00, 0xA0]⟩)] }
        bibs := [] }
    | _ => .error "expecting Array"
  build _ := .error "no builder"
  signBlock _ _ _ _ _ := .error "no signer"
  verifyAllBibs _ _ := .ok ()
  beginPayloadVerification _ _ := .ok []
  emit _ := []
  tokens _ := []

def echoApp : PingApp String where
  destination := "ipn:2.7"
  keystore := ⟨[]⟩
  policy := .warn

/-- A reply that comes twice after its ping was recorded. -/
theorem reply_counted_after_record :
    Along (Session.step echoHardy "dtn:none" echoApp) (Session.Timely echoHardy "dtn:none" echoApp)
        (.start 1) [.send 3, .finish true, .deliver 10 [0x9F], .deliver 12 [0x9F]] ↔
      Along (Session.step echoHardy "dtn:none" echoApp)
        (fun s e => (s.step echoHardy "dtn:none" echoApp e).Settled →
          (s.step echoHardy "dtn:none" echoApp e).Tallies)
        (.start 1) [.send 3, .finish true, .deliver 10 [0x9F], .deliver 12 [0x9F]] :=
  replies_counted_iff echoHardy "dtn:none" echoApp 1 _ rfl

/-- The reply to a ping that was handed over comes before the ping is recorded, and is not counted. -/
theorem early_reply_is_not_counted :
    let handed := run (Session.step echoHardy "dtn:none" echoApp) (.start 1) [.send 3]
    let s := run (Session.step echoHardy "dtn:none" echoApp) handed
      [.deliver 10 [0x9F], .finish true]
    handed.handed = [3] ∧ echoApp.replySeqNo echoHardy "dtn:none" [0x9F] = some 0 ∧ s.Settled ∧
      s.main.state.sent = 1 ∧ s.main.state.received = 0 ∧ ¬s.Tallies := by
  refine ⟨by decide +kernel, by decide +kernel, rfl, by decide +kernel, by decide +kernel,
    fun htallies => ?_⟩
  have hreceived := htallies.received
  revert hreceived
  decide +kernel

end HdyUtils.Ping
