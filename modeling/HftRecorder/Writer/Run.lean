import HftRecorder.Writer.Publish

/-!
# Runs of the writer

A run is a sequence of calls on a started writer. `exec` is one call, `run` a list of them.
`execWith` is a call whose directory operations meet the given outcomes; a run in which all I/O
succeeds is one from a directory without outcomes in store, since no call adds any.
-/

namespace HftRecorder.Corpus

open ByteLayout

/-- A call of `BinaryMarketCorpusWriter` after `start`. -/
inductive WriterCall
  | registerSources (sources : List BinaryMarketSource)
  | append (record : BinaryMarketRecord)
  | appendGap (gap : BinaryMarketGap)
  | updateProgress (progress : CorpusProducerProgress)
  | setReferencePayload (payload : Bytes)
  | publishCut (now : UInt64)
  | beginFinalDrain
  | finalize (reason : BinaryMarketStopReason) (finalizedReceiveNs : Int64) (now : UInt64)

def exec (X : Platform) (s : WriterState) : WriterCall → Status × WriterState
  | .registerSources sources => registerSources s sources
  | .append record => append X s record
  | .appendGap gap => appendGap s gap
  | .updateProgress progress => updateProgress s progress
  | .setReferencePayload payload => setReferencePayload s payload
  | .publishCut now => publishCut X s now.toNat
  | .beginFinalDrain => beginFinalDrain s
  | .finalize reason finalizedReceiveNs now => finalize X s reason finalizedReceiveNs now.toNat

/-- The state with the given outcomes in store for its directory operations. -/
def WriterState.withFaults (s : WriterState) (faults : List (Option ℕ)) : WriterState :=
  s.setDisk { s.disk with faults }

/-- One call whose directory operations meet the given outcomes. -/
def execWith (X : Platform) (s : WriterState) (call : WriterCall) (faults : List (Option ℕ)) :
    Status × WriterState :=
  exec X (s.withFaults faults) call

/-- The state after a list of calls, each with the outcomes that its directory operations meet. -/
def runWith (X : Platform) (s : WriterState) : List (WriterCall × List (Option ℕ)) → WriterState
  | [] => s
  | (call, faults) :: calls => runWith X (execWith X s call faults).2 calls

/-- A list of calls, one after the other: their statuses and the state after the last. -/
def run (X : Platform) (s : WriterState) : List WriterCall → List Status × WriterState
  | [] => ([], s)
  | call :: calls =>
    let result := exec X s call
    let rest := run X result.2 calls
    (result.1 :: rest.1, rest.2)

def runState (X : Platform) (s : WriterState) (calls : List WriterCall) : WriterState :=
  (run X s calls).2

/-! ## A small corpus

One source, a few book tickers, and a configuration with one shard, for runs on concrete input. -/

/-- A futures source with a book ticker feed that is present from the start. -/
def smallSource : BinaryMarketSource :=
  ⟨Raw.ofBytes 272 (pack
    [4, 4, 8, 40, 8, 32, 4, 4, 2, 2, 2, 2, 2, 2, 4, 1, 1, 1, 1, 1, 1, 1, 1, 1, 1, 7, 1, 5, 16, 16, 48,
      48, 1]
    [1, 1, 1, 0, 0, 0, 1, 2, 1, 1, 1, 1, 1, 0, 0, 1, 1, 0, 0, 0, 1, 7, 1, 1, 1, 0, 1, 0, 0x62,
      0x73657275747566, 0x62, 0x62, 0])⟩

def smallRecord (receiveMonotonicNs receiveRealtimeNs shardSequence shardIndex : ℕ) :
    BinaryMarketRecord :=
  ⟨Raw.ofBytes 1024 (pack
    [4, 4, 8, 8, 8, 8, 8, 8, 8, 8, 8, 8, 2, 2, 2, 1, 1, 2, 2, 4, 888, 32]
    [1, 0, 1, 1, 1, 1, 0, 0, 1, receiveRealtimeNs, receiveMonotonicNs, shardSequence, 88, shardIndex,
      0, 1, 0, 0, 0, 0, 0, 0])⟩

def smallConfig : BinaryMarketWriterConfig where
  root := "corpus"
  sources := [smallSource]
  producerEpoch := 1
  maximumBytes := 1000000000
  targetDurationNs := 1
  startedReceiveNs := 1
  startedMonotonicNs := 1
  ringCapacity := 1
  shardCount := 1

/-- The state of a writer that was started with it. -/
def smallStart : WriterState :=
  (start .stored smallConfig .absent []).2.get (by decide +kernel)

theorem start_smallConfig : start .stored smallConfig .absent [] = (.ok, some smallStart) :=
  Prod.ext (by decide +kernel) (Option.some_get _).symm

end HftRecorder.Corpus
