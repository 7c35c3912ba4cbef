import HdyUtils.Ltp.World

/-! End-to-end integrity.  Whatever the channel does to the order and number of segments, a host tells
its client of the blocks that were requested to be sent to it, and of nothing else. -/

namespace HdyUtils.Ltp

open Trace World

variable {ι : Type} [Fintype ι] [DecidableEq ι]

/-- The data that host `i` tells of is that of requests to it. -/
structure World.Intact (w : World ι) (i : ι) : Prop where
  red : ∀ sid source clientService data eob,
    .redPartReceived sid source clientService data eob ∈ (w i).emitted →
      ∃ r, w.For i r ∧ r.session = sid ∧ 0 < r.transfer.redLen ∧
        clientService = r.transfer.clientService ∧
        data = r.transfer.block.take r.transfer.redLen ∧
        (eob = true ↔ r.transfer.redLen = r.transfer.block.length)
  green : ∀ sid source offset data eob,
    .greenSegmentArrived sid source offset data eob ∈ (w i).emitted →
      ∃ r, w.For i r ∧ r.session = sid ∧ r.transfer.redLen ≤ offset ∧
        data = (r.transfer.block.drop offset).take data.length ∧
        offset + data.length ≤ r.transfer.block.length ∧
        (eob = true ↔ offset + data.length = r.transfer.block.length)

omit [Fintype ι] [DecidableEq ι] in
theorem World.FaithfulTo.intact {w : World ι} {R : ι → Request → Prop} (hw : w.FaithfulTo R) {i : ι}
    (hR : ∀ r, R i r → w.For i r) : w.Intact i := by
  have htells : ∀ x ∈ (w i).emitted, x.carriesData = true →
      ∃ r, w.For i r ∧ r.session = x.session ∧ x.TellsOf r.transfer := by
    intro x hx hdata
    by_cases hsid : x.session.originator = (w i).engine.config.engineId
    · -- a host tells nothing of the sessions that it originates
      have hsilent := (hw.transmits i x.session hsid).tells x hx rfl
      rw [hsilent] at hdata
      cases hdata
    · obtain ⟨r, hr, htells⟩ := (hw.collects i x.session hsid).tells x hx rfl hdata
      exact ⟨r, hR r hr, htells⟩
  constructor
  · intro sid source clientService data eob hx
    obtain ⟨r, hr, hsid, hpos, hclient, hdata, heob⟩ := htells _ hx rfl
    exact ⟨r, hr, hsid, hpos, hclient, hdata, heob⟩
  · intro sid source offset data eob hx
    obtain ⟨r, hr, hsid, hle, hdata, hfits, heob⟩ := htells _ hx rfl
    exact ⟨r, hr, hsid, hle, hdata, hfits, heob⟩

/-- In every run of engines with distinct identifiers, of which each opens fewer than 2 ^ 64
sessions. -/
theorem blocks_arrive_intact {config : ι → EngineConfig}
    (hids : Function.Injective fun i => (config i).engineId) {l : List (ι × Call)}
    (hsessions : ∀ i, (run false (new config) (calls l) i).requests.length < 2 ^ 64) (i : ι) :
    (run false (new config) (calls l)).Intact i :=
  (Faithful.run hids (distinct_calls hsessions)).faithfulTo.intact fun _ hr => hr

/-- Two engines of the default configuration but for their identifiers. -/
def twoEngines (i : Fin 2) : EngineConfig :=
  { EngineConfig.default with engineId := ⟨if i = 0 then 1 else 2⟩ }

/-- Engine 1 sends a block of two red octets and a green one, and its segments arrive at engine 2
in the other order, the red one twice. -/
def reordered : List (Fin 2 × Call) :=
  [(0, .request ⟨2⟩ 1 [7, 8, 9] 2 0), (0, .pollOutput), (0, .pollOutput),
    (1, .segment ⟨1⟩ [7, 1, 1, 0, 1, 2, 1, 9] 5),
    (1, .segment ⟨1⟩ [2, 1, 1, 0, 1, 0, 2, 1, 0, 7, 8] 6),
    (1, .segment ⟨1⟩ [2, 1, 1, 0, 1, 0, 2, 1, 0, 7, 8] 7)]

/-- After them engine 2 reports the red part to engine 1. -/
def reported : List (Fin 2 × Call) :=
  reordered ++ [(1, .pollOutput), (0, .segment ⟨2⟩ [8, 1, 1, 0, 1, 1, 2, 0, 1, 0, 2] 8)]

theorem blocks_arrive_intact_reordered :
    (run false (new twoEngines) (calls reordered) 1).emitted =
      [.greenSegmentArrived ⟨⟨1⟩, 1⟩ ⟨1⟩ 2 [9] true,
        .redPartReceived ⟨⟨1⟩, 1⟩ ⟨1⟩ 1 [7, 8] false] ∧
    (run false (new twoEngines) (calls reordered)).Intact 1 :=
  ⟨by decide +kernel, blocks_arrive_intact (by decide) (by decide +kernel) 1⟩

end HdyUtils.Ltp
