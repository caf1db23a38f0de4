import Signer.Handle
import Signer.Service.Run

/-!
# Connections

A connection carries one frame, a length and a JSON request, and gets one response. The
enclave runs by serving connections; each is served in the state its predecessors left.
-/

namespace Signer

open Text

def lengthPrefixBytes : Nat := 4

inductive FrameError where
  | tooLarge
  | io
  deriving DecidableEq, Repr

/-- `u32::from_be_bytes` on the prefix. -/
def frameLength (lenBuf : Bytes) : Nat := lenBuf.foldl (fun n b => n * 256 + b.toNat) 0

/-- `read_frame` on the bytes the peer sends before it hangs up. -/
def readFrame (stream : Bytes) : Except FrameError Bytes :=
  let lenBuf := stream.take lengthPrefixBytes
  let rest := stream.drop lengthPrefixBytes
  if lenBuf.length < lengthPrefixBytes then .error .io
  else if frameLength lenBuf = 0 ∨ maxMessageBytes < frameLength lenBuf then .error .tooLarge
  else if rest.length < frameLength lenBuf then .error .io
  else .ok (rest.take (frameLength lenBuf))

structure Connection where
  stream : Bytes
  amb : Ambient := {}

inductive Exchange where
  | dropped
  | rejected (code : ErrCode)
  | served (req : SignRequest) (result : Served)

def handleConnection (env : Env) (conn : Connection) (s : Enclave) : Exchange × Enclave :=
  match readFrame conn.stream with
  | .error .io => (.dropped, s)
  | .error .tooLarge => (.rejected .payloadTooLarge, s)
  | .ok frame =>
    match env.requestFromSlice frame with
    | none => (.rejected .badRequest, s)
    | some req =>
      let served := handle env conn.amb req s
      (.served req served.1, served.2)

abbrev ServerStep := Run.Step Connection Enclave Exchange

def serverSteps (env : Env) (s : Enclave) (conns : List Connection) : List ServerStep :=
  Run.steps (handleConnection env) s conns

/-! ### What a served connection carried -/

theorem length_of_readFrame {stream frame : Bytes} (h : readFrame stream = .ok frame) :
    frame.length ≤ maxMessageBytes := by
  simp only [readFrame, ite_error_eq_ok, Except.ok.injEq] at h
  obtain ⟨-, hlen, -, rfl⟩ := h
  rw [List.length_take]
  omega

theorem frameLength_beBytes {width n : Nat} (h : n < 256 ^ width) :
    frameLength (beBytes width n) = n := by
  induction width generalizing n with
  | zero =>
    rw [Nat.pow_zero] at h
    simp only [beBytes, frameLength, List.foldl_nil]
    omega
  | succ width ih =>
    rw [Nat.pow_succ] at h
    have hinit : frameLength (beBytes width (n / 256)) = n / 256 := ih (by omega)
    simp only [frameLength] at hinit
    simp only [beBytes, frameLength, List.foldl_append, List.foldl_cons, List.foldl_nil, hinit,
      UInt8.toNat_ofNat']
    omega

theorem readFrame_lengthPrefixed {frame : Bytes} (hne : frame ≠ [])
    (hlen : frame.length ≤ maxMessageBytes) :
    readFrame (lengthPrefixed lengthPrefixBytes frame) = .ok frame := by
  have hlt : frame.length < 256 ^ lengthPrefixBytes :=
    lt_of_le_of_lt hlen (by decide)
  have htake : (lengthPrefixed lengthPrefixBytes frame).take lengthPrefixBytes =
      beBytes lengthPrefixBytes frame.length :=
    List.take_left' (length_beBytes _ _)
  have hdrop : (lengthPrefixed lengthPrefixBytes frame).drop lengthPrefixBytes = frame :=
    List.drop_left' (length_beBytes _ _)
  simp [readFrame, htake, hdrop, frameLength_beBytes hlt, hne, Nat.not_lt.mpr hlen]

theorem handleConnection_served {env : Env} {conn : Connection} {s s' : Enclave}
    {req : SignRequest} {served : Served}
    (h : handleConnection env conn s = (.served req served, s')) :
    ∃ frame, frame.length ≤ maxMessageBytes ∧ env.requestFromSlice frame = some req ∧
      handle env conn.amb req s = (served, s') := by
  unfold handleConnection at h
  split at h
  · simp at h
  · simp at h
  · rename_i frame hframe
    split at h
    · simp at h
    · rename_i req' hreq
      obtain ⟨⟨rfl, rfl⟩, rfl⟩ := Prod.mk.inj h
      exact ⟨frame, length_of_readFrame hframe, hreq, rfl⟩

end Signer
