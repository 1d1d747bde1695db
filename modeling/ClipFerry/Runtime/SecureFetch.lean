import Mathlib.Logic.Function.Iterate
import ClipFerry.Client.FaultyPeer

namespace ClipFerry.Runtime

open Checked VirtualTree Protocol Server ClipFerry.Stream Client

def windowsToIo (windowsText : HResult → String) (error : HResult) : IoError :=
  .new .other
    ("Windows error 0x" ++ .ofList (upperHex 8 error.code.toNat) ++ ": " ++ windowsText error)

def fetchBuffer : Nat := 256 * 1024

inductive FetchPhase where
  | copying
  | copied
  | failed (error : IoError)

/-! The loop of `run_secure_fetch_probe`; `written` is what the partial file and the digest got. -/

structure SecureFetch where
  attempt : Nat
  offset : UInt64
  written : List UInt8
  phase : FetchPhase

namespace SecureFetch

def start : SecureFetch := ⟨0, 0, [], .copying⟩

def ending (source : ReadAtSource) (fetch : SecureFetch) : FetchPhase :=
  if fetch.offset ≠ source.len then
    .failed (.new .unexpectedEof "download size differs from authenticated manifest")
  else .copied

def step (source : ReadAtSource) (windowsText : HResult → String) (fetch : SecureFetch) :
    SecureFetch :=
  match fetch.phase with
  | .copied | .failed _ => fetch
  | .copying =>
    match source.readAt fetch.attempt fetch.offset.toNat fetchBuffer with
    | .error error => { fetch with phase := .failed (windowsToIo windowsText error) }
    | .ok (read, buffer) =>
      if read = 0 then { fetch with phase := fetch.ending source }
      else
        let written := fetch.written ++ buffer.val.take read
        match checkedAdd fetch.offset read with
        | .error _ =>
          { fetch with written := written, phase := .failed (.new .other "download offset overflow") }
        | .ok offset => ⟨fetch.attempt + 1, offset, written, .copying⟩

/-! A peer that never stops answering: every pass of the loop writes a whole buffer. -/

theorem step_endless (size : UInt64) (windowsText : HResult → String) {fetch : SecureFetch}
    (hphase : fetch.phase = .copying) :
    ((fetch.step (overlong size (2 ^ 65)) windowsText).written.length =
      fetch.written.length + fetchBuffer) ∧
    (fetch.offset.toNat + fetchBuffer < 2 ^ 64 →
      (fetch.step (overlong size (2 ^ 65)) windowsText).phase = .copying ∧
      (fetch.step (overlong size (2 ^ 65)) windowsText).offset.toNat =
        fetch.offset.toNat + fetchBuffer) := by
  have hoffset := fetch.offset.toNat_lt
  have hread : min (min fetchBuffer maxSecureRangeBytes) (2 ^ 65 - fetch.offset.toNat) =
      fetchBuffer := by
    have hbuffer : min fetchBuffer maxSecureRangeBytes = fetchBuffer := by decide
    have hsmall : fetchBuffer ≤ 2 ^ 64 := by decide
    omega
  have hne : fetchBuffer ≠ 0 := by decide
  have hwritten : ((List.Vector.replicate fetchBuffer (0 : UInt8)).val.take fetchBuffer).length =
      fetchBuffer := by
    rw [List.length_take, List.Vector.length_val, Nat.min_self]
  unfold step
  rw [hphase]
  simp only [overlong, hread, if_neg hne]
  split
  · rename_i hover
    refine ⟨by rw [List.length_append, hwritten], fun hlt => ?_⟩
    rw [checkedAdd, if_neg (Nat.not_le.mpr hlt)] at hover
    cases hover
  · rename_i offset hadd
    exact ⟨by rw [List.length_append, hwritten], fun _ => ⟨rfl, checkedAdd_toNat hadd⟩⟩

theorem steps_endless (size : UInt64) (windowsText : HResult → String) (k : Nat)
    (hk : k * fetchBuffer < 2 ^ 64) :
    ((step (overlong size (2 ^ 65)) windowsText)^[k] start).phase = .copying ∧
    ((step (overlong size (2 ^ 65)) windowsText)^[k] start).offset.toNat = k * fetchBuffer ∧
    ((step (overlong size (2 ^ 65)) windowsText)^[k] start).written.length = k * fetchBuffer := by
  induction k with
  | zero => exact ⟨rfl, by simp [start], by simp [start]⟩
  | succ k ih =>
    rw [Nat.succ_mul] at hk
    obtain ⟨hphase, hoffset, hwritten⟩ := ih (by omega)
    obtain ⟨hlength, hmore⟩ := step_endless size windowsText hphase
    obtain ⟨hphase', hoffset'⟩ := hmore (by omega)
    rw [Function.iterate_succ_apply', Nat.succ_mul]
    exact ⟨hphase', by omega, by omega⟩

theorem written_past_any_size (size : UInt64) (windowsText : HResult → String) :
    ∃ k, size.toNat < ((step (overlong size (2 ^ 65)) windowsText)^[k] start).written.length := by
  have hsize := size.toNat_lt
  have hpos : 0 < fetchBuffer := by decide
  have hdiv := Nat.div_mul_le_self size.toNat fetchBuffer
  have hmod := Nat.lt_div_mul_add (a := size.toNat) hpos
  obtain ⟨hphase, -, hwritten⟩ := steps_endless size windowsText (size.toNat / fetchBuffer)
    (by omega)
  refine ⟨size.toNat / fetchBuffer + 1, ?_⟩
  rw [Function.iterate_succ_apply', (step_endless size windowsText hphase).1, hwritten]
  exact hmod

end SecureFetch

end ClipFerry.Runtime
