import HftRecorder.Capture.Native

/-!
# The steps of the native market capture

What one action of the two threads can do, with the guards that matter for the handoff. Everything
that is proved about its runs goes through the cases of `NativeStep`.
-/

namespace HftRecorder.Capture

open Corpus

variable {δ ℓ : Type}

/-- The event of the call that the market thread is in, until the event is pushed or given up. -/
def MarketPc.event : MarketPc δ ℓ → Option (NativeEvent δ)
  | .testing e _ | .placing e _ | .copying e _ _ | .publishing e | .pushing e | .storing e
  | .stored e => some e
  | _ => none

/-- The steps of the two threads. -/
inductive NativeStep (T : NativeTopology) (s : NativeState δ ℓ) : NativeState δ ℓ → Prop
  | call (c : MarketCall δ ℓ) (hm : s.market = .idle) :
      NativeStep T s
        { s with market := NativeState.entry s.calls.length c, calls := s.calls ++ [c] }
  | shutdown (hm : s.market = .idle) :
      NativeStep T s { s with stopStorage := true, market := .joining }
  /-- A test of `onDepth` or of `publish` fails. -/
  | giveUp (e : NativeEvent δ) (hm : s.market.event = some e) :
      NativeStep T s { s with market := .losing e.call e.sourceId .total }
  | test (e : NativeEvent δ) (levels : DepthLevels ℓ) (hm : s.market = .testing e levels)
      (hcapacity : T.rowCapacity ≠ 0) (hcount : levels.count ≤ T.rowCapacity)
      (hgiven : levels.absent = false)
      (hhead : s.rowHead ≤ subWrap (subWrap maximumUInt64 T.rowCapacity) levels.count) :
      NativeStep T s { s with market := .placing e levels.rows }
  | place (e : NativeEvent δ) (levels : List ℓ) (start : ℕ) (hm : s.market = .placing e levels)
      (hstart : start = NativeState.rowBegin T.rowCapacity s.rowHead levels.length)
      (hroom : subWrap (start + levels.length) s.rowTail ≤ T.rowCapacity) :
      NativeStep T s
        { s with
          market := .copying
            { e with
              levels := start % T.rowCapacity
              levelCount := levels.length
              rowEnd := start + levels.length }
            (start % T.rowCapacity) levels }
  | copy (e : NativeEvent δ) (row : ℕ) (level : ℓ) (levels : List ℓ)
      (hm : s.market = .copying e row (level :: levels)) :
      NativeStep T s
        { s with
          rows := Function.update s.rows row level
          market := .copying e (row + 1) levels }
  | copied (e : NativeEvent δ) (row : ℕ) (hm : s.market = .copying e row []) :
      NativeStep T s { s with rowHead := e.rowEnd, market := .publishing e }
  | publish (e : NativeEvent δ) (hm : s.market = .publishing e) :
      NativeStep T s { s with market := .pushing e }
  | push (e : NativeEvent δ) (hm : s.market = .pushing e) (hfull : s.queue.full = false) :
      NativeStep T s { s with market := .storing e }
  | store (e : NativeEvent δ) (hm : s.market = .storing e) :
      NativeStep T s { s with queue := s.queue.store e, market := .stored e }
  | stored (e : NativeEvent δ) (hm : s.market = .stored e) :
      NativeStep T s
        { s with queue := s.queue.publish, pushed := s.pushed ++ [e], market := .idle }
  | loseTotal (n id : ℕ) (hm : s.market = .losing n id .total) :
      NativeStep T s { s.lose n id .total with market := .losing n id .bySource }
  | loseBySource (n id : ℕ) (hm : s.market = .losing n id .bySource) :
      NativeStep T s { s.lose n id .bySource with market := .losing n id .failed }
  | loseFailed (n id : ℕ) (hm : s.market = .losing n id .failed) :
      NativeStep T s { s.lose n id .failed with market := .idle }
  | join (hm : s.market = .joining) (hw : s.storage = .ended) :
      NativeStep T s { s with market := .reporting 0 }
  | report (i : ℕ) (object : PublicMarketObject) (hm : s.market = .reporting i)
      (hi : T.sources[i]? = some object) :
      NativeStep T s
        { s with
          lostBySource := Function.update s.lostBySource i 0
          captureLosses :=
            if s.lostBySource i = 0 then s.captureLosses
            else s.captureLosses ++ [(i, object.name, s.lostBySource i)]
          market := .reporting (i + 1) }
  | reported (i : ℕ) (hm : s.market = .reporting i) (hi : T.sources[i]? = none) :
      NativeStep T s { s with market := .returned }
  | foundEmpty (hw : s.storage = .top) (hempty : s.queue.empty = true) :
      NativeStep T s { s with storage := .loadStop }
  | found (hw : s.storage = .top) (hempty : s.queue.empty = false) :
      NativeStep T s { s with storage := .popping }
  | pop (hw : s.storage = .popping) :
      NativeStep T s { s with storage := .popped s.queue.front }
  | popped (e : NativeEvent δ) (hw : s.storage = .popped e) :
      NativeStep T s
        { s with queue := s.queue.advance, popped := s.popped + 1, storage := .testing e }
  | skip (e : NativeEvent δ) (hw : s.storage = .testing e) :
      NativeStep T s { s with storage := .losing e .total none }
  | consume (e : NativeEvent δ) (hw : s.storage = .testing e) :
      NativeStep T s { s with storage := .consuming e }
  | outside (e : NativeEvent δ) (hw : s.storage = .consuming e) :
      NativeStep T s
        { s with
          consumed := s.consumed ++ [e]
          error := "capture commit source outside configured membership"
          refused := s.refused ++ [e.call]
          storage := .failing e none }
  | unrepresentable (e : NativeEvent δ) (detail : String) (hw : s.storage = .consuming e)
      (hdetail : detail ≠ "") :
      NativeStep T s
        { s with
          consumed := s.consumed ++ [e]
          error := detail
          storage := .losing e .total (some detail) }
  | represent (e : NativeEvent δ) (hw : s.storage = .consuming e) :
      NativeStep T s { s with consumed := s.consumed ++ [e], storage := .reading e [] }
  | read (e : NativeEvent δ) (levels : List ℓ) (hw : s.storage = .reading e levels)
      (hlt : levels.length < e.levelCount) :
      NativeStep T s
        { s with storage := .reading e (levels ++ [s.rows (e.levels + levels.length)]) }
  | readAll (e : NativeEvent δ) (levels : List ℓ) (hw : s.storage = .reading e levels)
      (hle : e.levelCount ≤ levels.length) :
      NativeStep T s { s with storage := .appending e levels }
  | commit (e : NativeEvent δ) (levels : List ℓ) (hw : s.storage = .appending e levels) :
      NativeStep T s
        { s with
          handed := s.handed ++ [(e, levels)]
          committedRows := s.committedRows + 1
          committed := s.committed ++ [e.call]
          storage := .retiring e }
  | reject (e : NativeEvent δ) (levels : List ℓ) (detail : String)
      (hw : s.storage = .appending e levels) (hdetail : detail ≠ "") :
      NativeStep T s
        { s with
          handed := s.handed ++ [(e, levels)]
          error := detail
          refused := s.refused ++ [e.call]
          storage := .failing e (some detail) }
  | fail (e : NativeEvent δ) (note : Option String) (hw : s.storage = .failing e note) :
      NativeStep T s { s with failed := true, storage := .noted e note }
  | dropTotal (e : NativeEvent δ) (note : Option String) (hw : s.storage = .losing e .total note) :
      NativeStep T s
        { s.lose e.call e.sourceId .total with storage := .losing e .bySource note }
  | dropBySource (e : NativeEvent δ) (note : Option String)
      (hw : s.storage = .losing e .bySource note) :
      NativeStep T s
        { s.lose e.call e.sourceId .bySource with storage := .losing e .failed note }
  | dropFailed (e : NativeEvent δ) (note : Option String) (hw : s.storage = .losing e .failed note) :
      NativeStep T s { s.lose e.call e.sourceId .failed with storage := .noted e note }
  | note (e : NativeEvent δ) (note : String) (hw : s.storage = .noting e note) :
      NativeStep T s
        { s with
          channelErrors := s.channelErrors ++ [(e.sourceId - 1, e.value.object.name, note)]
          storage := .retiring e }
  | retire (e : NativeEvent δ) (hw : s.storage = .retiring e) :
      NativeStep T s
        { s with
          rowTail := if e.value.object = .depth then e.rowEnd else s.rowTail
          storage := .top }
  | goOn (hw : s.storage = .loadStop) (hstop : s.stopStorage = false) :
      NativeStep T s { s with storage := .top }
  | finish (hw : s.storage = .loadStop) (hstop : s.stopStorage = true) :
      NativeStep T s { s with storage := .ended }

variable {T : NativeTopology} {s t : NativeState δ ℓ}

theorem refusal_ne {value : MarketValue δ} {detail : String} (h : value.refusal = some detail) :
    detail ≠ "" := by
  cases value with
  | trade unknownSide =>
    cases unknownSide with
    | false => cases h
    | true =>
      cases h
      decide
  | bookTicker => cases h
  | depth delta nativeStream =>
    rw [MarketValue.refusal] at h
    split at h
    · cases h
      decide
    · cases h

/-- An operation of the market thread is one of the steps. -/
theorem nativeStep_of_marketStep (h : s.marketStep T = some t) : NativeStep T s t := by
  unfold NativeState.marketStep at h
  split at h
  · cases h
  · rename_i e levels hm
    cases h
    split
    · exact .giveUp e (by rw [hm]; rfl)
    · rename_i htests
      simp only [not_or, Bool.not_eq_true, not_lt] at htests
      exact .test e levels hm htests.2.1 htests.2.2.1 htests.2.2.2.1 htests.2.2.2.2
  · rename_i e levels hm
    cases h
    split
    · exact .giveUp e (by rw [hm]; rfl)
    · rename_i hroom
      exact .place e levels _ hm rfl (not_lt.mp hroom)
  · rename_i e row level levels hm
    cases h
    exact .copy e row level levels hm
  · rename_i e row hm
    cases h
    exact .copied e row hm
  · rename_i e hm
    cases h
    split
    · exact .giveUp e (by rw [hm]; rfl)
    · exact .publish e hm
  · rename_i e hm
    cases h
    split
    · exact .giveUp e (by rw [hm]; rfl)
    · rename_i hfull
      exact .push e hm (Bool.not_eq_true _ ▸ hfull)
  · rename_i e hm
    cases h
    exact .store e hm
  · rename_i e hm
    cases h
    exact .stored e hm
  · rename_i n id step hm
    cases h
    cases step with
    | total => exact .loseTotal n id hm
    | bySource => exact .loseBySource n id hm
    | failed => exact .loseFailed n id hm
  · rename_i hm
    split at h
    · rename_i hw
      cases h
      exact .join hm hw
    · cases h
  · rename_i i hm
    split at h
    · rename_i object hi
      cases h
      exact .report i object hm hi
    · rename_i hi
      cases h
      exact .reported i hm hi
  · cases h

/-- An operation of the storage thread is one of the steps. -/
theorem nativeStep_of_storageStep {ok : Bool} {lastError : String}
    (h : s.storageStep T ok lastError = some t) : NativeStep T s t := by
  unfold NativeState.storageStep at h
  split at h
  · rename_i hw
    cases h
    split
    · rename_i hempty
      exact .foundEmpty hw hempty
    · rename_i hempty
      exact .found hw (Bool.not_eq_true _ ▸ hempty)
  · rename_i hw
    cases h
    exact .pop hw
  · rename_i e hw
    cases h
    exact .popped e hw
  · rename_i e hw
    cases h
    split
    · exact .skip e hw
    · exact .consume e hw
  · rename_i e hw
    dsimp only at h
    split at h
    · cases h
      exact .outside e hw
    · split at h
      · rename_i detail hrefusal
        cases h
        exact .unrepresentable e detail hw (refusal_ne hrefusal)
      · cases h
        exact .represent e hw
  · rename_i e levels hw
    cases h
    split
    · rename_i hlt
      exact .read e levels hw hlt
    · rename_i hge
      exact .readAll e levels hw (not_lt.mp hge)
  · rename_i e levels hw
    dsimp only at h
    split at h
    · cases h
      exact .commit e levels hw
    · cases h
      refine .reject e levels _ hw ?_
      split
      · exact of_decide_eq_true rfl
      · assumption
  · rename_i e note hw
    cases h
    exact .fail e note hw
  · rename_i e step note hw
    cases h
    cases step with
    | total => exact .dropTotal e note hw
    | bySource => exact .dropBySource e note hw
    | failed => exact .dropFailed e note hw
  · rename_i e note hw
    cases h
    exact .note e note hw
  · rename_i e hw
    cases h
    exact .retire e hw
  · rename_i hw
    cases h
    split
    · rename_i hstop
      exact .finish hw hstop
    · rename_i hstop
      exact .goOn hw (Bool.not_eq_true _ ▸ hstop)
  · cases h

theorem nativeStep_of_step {a : NativeAction δ ℓ} (h : s.step T a = some t) : NativeStep T s t := by
  cases a with
  | call c =>
    simp only [NativeState.step] at h
    split at h
    · rename_i hm
      cases h
      exact .call c hm
    · cases h
  | shutdown =>
    simp only [NativeState.step] at h
    split at h
    · rename_i hm
      cases h
      exact .shutdown hm
    · cases h
  | market => exact nativeStep_of_marketStep h
  | storage ok lastError => exact nativeStep_of_storageStep h

end HftRecorder.Capture
