import TinyLink.Warm

/-!
# Storing the record

The calls of `tl_warm_store` in one boot, with the blob that NVS holds: `tl_warm_load` reads it, and a
call whose record is due writes it.
-/

namespace TinyLink

structure StoreState where
  mirror : WarmNvs
  nvs : Option Bytes

/-- What `io->read` gives for a stored blob. -/
def warmRead : Option Bytes → WarmRead
  | none => .absent
  | some b => if b.length > tlWarmBlobMax + 1 then .tooLong else .blob b

def storeBoot (rtc : WarmRtc) (resetReason : ℕ) (eraseOk : Bool) (stored : Option Bytes) : StoreState :=
  let l := tlWarmLoad rtc resetReason eraseOk (warmRead stored)
  ⟨l.nvs, if l.load = .erased then none else stored⟩

structure StoreCall where
  next : WarmRec
  nowUnix : ℕ
  nowUs : ℤ
  fresh : Bool

/-- A call whose write, if there is one, succeeds: NVS then holds the encoded record. -/
def storeStep (s : StoreState) (c : StoreCall) : StoreState :=
  let w := tlWarmStore s.mirror c.next c.nowUnix c.nowUs c.fresh true
  ⟨w.1, if w.2 = .written then tlWarmEncode w.1.record tlWarmBlobMax else s.nvs⟩

def storeRun (s : StoreState) (calls : List StoreCall) : StoreState := calls.foldl storeStep s

/-- The endpoints or the DiscoKey differ: a change that is written at most hourly. -/
def softChange (was now : WarmRec) : Bool := (tlWarmDiff was now).disco || (tlWarmDiff was now).ep

/-- Every change of the endpoints or the DiscoKey from one call to the next is an hour old. -/
def SoftSettled (calls : List StoreCall) (now : ℤ) : Prop :=
  ∀ pre a b post, calls = pre ++ a :: b :: post → softChange a.next b.next = true →
    b.nowUs + tlWarmSoftMinUs ≤ now

/-- A blob without the four bytes of the timestamp. -/
def apartStamp (b : Bytes) : Bytes := b.take 1 ++ b.drop 5

/-- A blob without the timestamp and the NodeID. -/
def apartStampId (b : Bytes) : Bytes := b.take 1 ++ ((b.drop 5).take 20 ++ b.drop 33)

/-- The blobs agree apart from the timestamp; a NodeID of 0 in the first one stands for any. -/
def SameStored (was now : Bytes) : Prop :=
  if (was.drop 25).take 8 = List.replicate 8 0 then apartStampId was = apartStampId now
  else apartStamp was = apartStamp now

end TinyLink
