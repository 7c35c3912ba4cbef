import HdyUtils.Lib.Groups
import HdyUtils.Lib.Tables
import HdyUtils.Lib.Text

/-! The traffic statistics of `hdy-stats` (`bin/hdy-stats.rs`): the bundles that the lines of the log tell
of are kept in a table under their identifiers, old rows are deleted, and a report counts the rows of
the last day, week and month by source. -/

namespace HdyUtils.Stats

structure Record where
  bundleId : String
  sourceEid : String
  /-- In seconds. -/
  receivedAt : Int
deriving DecidableEq, Repr

/-- The table `bundle_traffic`. -/
abbrev Db := Table Record Record.bundleId

/-! ### Lines of the log -/

namespace Db

end Db

/-- The seconds of a number of days, as a signed number: `(days * 24 * 3600) as i64`. -/
def retentionSecs (days : UInt64) : Int := (days * 24 * 3600).toBitVec.toInt

/-- A line of the log and what happens with it. -/
structure Line where
  text : String
  now : Int
  /-- The table can be written. -/
  written : Bool
  /-- The time of the cleanup after the line, if one is due and the table can be written. -/
  cleanup : Option Int

/-- A run of the program. -/
structure Session where
  /-- In days. -/
  retention : UInt64
  /-- The time of the first cleanup, if the table can be written. -/
  cleanup : Option Int
  lines : List Line

/-- The bundles of a source that the log tells of since a time. -/
def seenSince (seen : List Record) (since : Int) (source : String) : Finset String :=
  ((seen.filter fun r => decide (r.sourceEid = source ∧ since ≤ r.receivedAt)).map
    Record.bundleId).toFinset

/-- The bundles of a source that the log tells of since a time and not before it. -/
def newSince (seen : List Record) (since : Int) (source : String) : Finset String :=
  (seenSince seen since source).filter fun id =>
    ∀ r ∈ seen, r.bundleId = id → since ≤ r.receivedAt

/-! ### The identifier has the source -/

/-- Every row is what a line of the log says, and a bundle that the log tells of only since a time is
in the table. -/
structure Tallies (since : Int) (seen : List Record) (db : Db) : Prop where
  seen_of_mem : ∀ r ∈ db.rows, r ∈ seen
  kept : ∀ r ∈ seen, (∀ r' ∈ seen, r'.bundleId = r.bundleId → since ≤ r'.receivedAt) →
    (db.get r.bundleId).isSome

namespace Tallies

variable {since : Int} {seen : List Record} {db : Db}

end Tallies

/-- Nothing is cleaned away that is not older than a time. -/
def Session.Keeps (since : Int) (s : Session) : Prop :=
  (∀ now ∈ s.cleanup, now - retentionSecs s.retention ≤ since) ∧
    ∀ line ∈ s.lines, ∀ now ∈ line.cleanup, now - retentionSecs s.retention ≤ since

/-- The bundles of a source that a report counts. -/
def counted (db : Db) (since : Int) (source : String) : Finset String :=
  ((db.rows.filter fun r => decide (r.sourceEid = source ∧ since ≤ r.receivedAt)).map
    Record.bundleId).toFinset

section Counts

variable {since : Int} {sessions : List Session}

end Counts

/-- The retention period is a month or more, and so little that its seconds are a signed number. -/
def Session.KeepsMonth (s : Session) : Prop :=
  30 ≤ s.retention.toNat ∧ s.retention.toNat * (24 * 3600) < 2 ^ 63

/-- The cleanups were all made by a time. -/
def Session.CleanedBy (now : Int) (s : Session) : Prop :=
  (∀ t ∈ s.cleanup, t ≤ now) ∧ ∀ line ∈ s.lines, ∀ t ∈ line.cleanup, t ≤ now

theorem retentionSecs_eq {days : UInt64} (h : days.toNat * (24 * 3600) < 2 ^ 63) :
    retentionSecs days = days.toNat * (24 * 3600) := by
  have hnat : (days * 24 * 3600).toNat = days.toNat * (24 * 3600) := by
    rw [UInt64.toNat_mul, UInt64.toNat_mul]
    simp only [UInt64.reduceToNat]
    omega
  have hsmall : 2 * (days * 24 * 3600).toBitVec.toNat < 2 ^ 64 := by
    rw [UInt64.toNat_toBitVec, hnat]
    omega
  unfold retentionSecs
  rw [BitVec.toInt_eq_toNat_of_lt hsmall, UInt64.toNat_toBitVec, hnat]
  push_cast
  rfl

theorem Session.keeps {s : Session} {now window : Int} (hmonth : s.KeepsMonth) (hby : s.CleanedBy now)
    (hwindow : window ≤ 30 * 24 * 3600) : s.Keeps (now - window) := by
  have hsecs := retentionSecs_eq hmonth.2
  have hdays := hmonth.1
  constructor
  · intro t ht
    have hle := hby.1 t ht
    omega
  · intro line hline t ht
    have hle := hby.2 line hline t ht
    omega

/-- A list of groups is a report on a window: each source is in it once, in order of decreasing numbers,
with at least the number of its bundles that the log tells of for the first time in the window and at
most the number of those that it tells of in the window. -/
structure Reports (seen : List Record) (since : Int) (groups : List (String × Nat)) : Prop where
  nodup : (groups.map Prod.fst).Nodup
  descending : groups.Pairwise fun a b => b.2 ≤ a.2
  least : ∀ source, (newSince seen since source).card ≤ Groups.countOf groups source
  most : ∀ source, Groups.countOf groups source ≤ (seenSince seen since source).card

end HdyUtils.Stats
