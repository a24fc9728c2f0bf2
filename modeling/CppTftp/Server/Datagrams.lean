import CppTftp.Common.Wire
import CppTftp.Server.Startup
import Mathlib.Data.Nat.Digits.Defs

/-!
# What one datagram holds

A socket refuses to send what does not fit into one UDP datagram. An OACK always fits: the
request that it answers came in a datagram of at most 2048 bytes,
`tftp_connection_handler.cpp:25`.
-/

namespace CppTftp.TftpServerConnection

open Tftp Lib Utils

/-- The longest payload of a UDP datagram over IPv4: 65535 bytes less the headers of both. -/
def maxUdpPayload : Nat := 65507

/-- Whether the socket takes the packet of an action; `send` fails with EMSGSIZE on a longer one. -/
def fits : Action → Bool
  | .send data => data.length ≤ maxUdpPayload
  | _ => true

/-- What becomes of the `send` of the next call of `handle_write` where nothing but the length of
the packet can make it fail. -/
def sendResult (c : TftpServerConnection) : SendResult :=
  if (c.handleWrite .sent).log.all fits then .sent else .failed

/-! ### The length of an OACK -/

theorem length_serialiseOackPacket (packet : OackPacket) :
    (serialiseOackPacket packet).length = (optionBytes packet.options).length + 2 := by
  show (([0, PacketT.oack.code] : Bytes) ++ optionBytes packet.options).length = _
  rw [List.length_append, Nat.add_comm]
  rfl

/-- An option takes its name, its value and their terminators. -/
@[simp] theorem length_optionBytes_cons (opt : Bytes × Bytes) (options : List (Bytes × Bytes)) :
    (optionBytes (opt :: options)).length =
      opt.1.length + opt.2.length + 2 + (optionBytes options).length := by
  simp only [optionBytes, List.flatMap_cons, List.length_append, List.length_singleton]
  omega

/-- Pairs of strings are no longer than the strings with their terminators. -/
theorem length_pairs_le (strings : List Bytes) :
    (optionBytes (pairs strings)).length ≤ (terminated 0 strings).length := by
  induction strings using pairs.induct with
  | case1 name value rest ih =>
    rw [pairs, length_optionBytes_cons, terminated_cons, terminated_cons]
    simp only [List.length_append, List.length_cons]
    omega
  | case2 strings h =>
    have hnone : pairs strings = [] := by
      rw [pairs]
      exact h
    rw [hnone]
    exact Nat.zero_le _

/-- The options of a request are no longer than the datagram that it came in. -/
theorem length_options_le {d : Bytes} {request : RwPacket}
    (h : deserialiseRwPacket d = some request) :
    (optionBytes request.options).length ≤ d.length := by
  have hall : (terminated 0 (extractCStringsFromBuffer d 2)).length ≤ d.length := by
    obtain ⟨tail, hsplit⟩ := exists_tail (d.drop 2)
    have hlen := congrArg List.length hsplit.eq
    rw [List.length_append, List.length_drop] at hlen
    show (terminated 0 (cStrings (d.drop 2))).length ≤ d.length
    omega
  have hupper : ∀ opts : List (Bytes × Bytes),
      (optionBytes (opts.map fun opt ↦ (opt.1.map toupper, opt.2.map toupper))).length =
        (optionBytes opts).length := by
    intro opts
    simp [List.length_flatMap, optionBytes, Function.comp_def]
  unfold deserialiseRwPacket at h
  split at h
  · cases h
  · split at h
    · cases h
    · dsimp only at h
      split at h
      · next filename modeStr params hstrings =>
        rw [hstrings, terminated_cons, terminated_cons] at hall
        simp only [List.length_append, List.length_cons] at hall
        split at h
        · cases h
        · split at h
          · cases h
            exact Nat.zero_le _
          · cases h
            rw [hupper]
            have hle := length_pairs_le params
            omega
      · cases h

/-- How much of an OACK the options acknowledged so far take. -/
def oackLength (c : TftpServerConnection) : Nat := (optionBytes c.oackPacket.options).length

/-- An answer adds its name and value. -/
theorem oackLength_pushOack (c : TftpServerConnection) (name value : Bytes) :
    (c.pushOack name value).oackLength = c.oackLength + (name.length + value.length + 2) := by
  have hsplit : optionBytes (c.oackPacket.options ++ [(name, value)]) =
      optionBytes c.oackPacket.options ++ optionBytes [(name, value)] := List.flatMap_append
  show (optionBytes (c.oackPacket.options ++ [(name, value)])).length = _
  rw [hsplit, List.length_append, length_optionBytes_cons]
  rfl

/-- An option is answered by its own value, or by a number of at most 20 digits. -/
theorem oackLength_answer {c c' : TftpServerConnection} (hsame : c'.oackPacket = c.oackPacket)
    (name : Bytes) {value answer : Bytes} (h : answer.length ≤ value.length + 20) :
    (c'.pushOack name answer).oackLength ≤
      c.oackLength + 11 * (name.length + value.length + 2) := by
  rw [oackLength_pushOack, oackLength, hsame, oackLength]
  omega

/-- A number of 64 bits has at most 20 digits. -/
theorem length_toDecimal_le {n : Nat} (h : n < 2 ^ 64) (value : Bytes) :
    (toDecimal n).length ≤ value.length + 20 := by
  have hdigits : (Nat.toDigits 10 n).length ≤ 20 :=
    Nat.toDigits_length 10 n 20 (by decide) (by omega)
  rw [toDecimal, List.length_map]
  omega

theorem oackLength_processBlksize (w : World) (c : TftpServerConnection) (name value : Bytes) :
    (c.processBlksize w name value).oackLength ≤
      c.oackLength + 11 * (name.length + value.length + 2) := by
  unfold processBlksize
  split
  · omega
  · next val _ =>
    dsimp only
    split
    · apply oackLength_answer rfl
      exact Nat.le_add_right _ _
    · split
      · next hm =>
        apply oackLength_answer rfl
        apply length_toDecimal_le
        unfold toInt32 at hm
        split at hm <;> omega
      · apply oackLength_answer rfl
        exact Nat.le_add_right _ _

theorem oackLength_processTimeout (c : TftpServerConnection) (name value : Bytes) :
    (c.processTimeout name value).oackLength ≤
      c.oackLength + 11 * (name.length + value.length + 2) := by
  unfold processTimeout
  split
  · omega
  · next reqTimeoutS _ =>
    split
    · omega
    · apply oackLength_answer rfl
      apply length_toDecimal_le
      have hlt := (UInt8.ofNat reqTimeoutS).toNat_lt
      omega

/-- One option makes the OACK longer by at most eleven times its own length. -/
theorem oackLength_processOption {w : World} (hsize : w.fileSize < 2 ^ 64) (request : RwPacket)
    (c : TftpServerConnection) (opt : Bytes × Bytes) :
    (processOption w request c opt).oackLength ≤
      c.oackLength + 11 * (opt.1.length + opt.2.length + 2) := by
  unfold processOption
  split
  · exact oackLength_processBlksize w c opt.1 opt.2
  · split
    · split
      · apply oackLength_answer rfl
        exact length_toDecimal_le hsize opt.2
      · omega
    · split
      · exact oackLength_processTimeout c opt.1 opt.2
      · omega

/-- All options together make it longer by at most eleven times their own length. -/
theorem oackLength_processOptions {w : World} (hsize : w.fileSize < 2 ^ 64) (request : RwPacket)
    (c : TftpServerConnection) :
    (c.processOptions w request).oackLength ≤
      c.oackLength + 11 * (optionBytes request.options).length := by
  rw [processOptions]
  induction request.options generalizing c with
  | nil => exact Nat.le_add_right _ _
  | cons opt options ih =>
    have hone := oackLength_processOption hsize request c opt
    have hrest := ih (processOption w request c opt)
    rw [List.foldl_cons, length_optionBytes_cons]
    omega

/-- Every OACK fits into a datagram. -/
theorem length_oack_le {w : World} {request : RwPacket} {d : Bytes}
    (hd : deserialiseRwPacket d = some request) (hlen : d.length ≤ 2048)
    (hsize : w.fileSize < 2 ^ 64) (type : PacketT) :
    (serialiseOackPacket ((blank type).processOptions w request).oackPacket).length ≤
      maxUdpPayload := by
  have hall := oackLength_processOptions hsize request (blank type)
  have hin := length_options_le hd
  have hempty : (blank type).oackLength = 0 := rfl
  rw [oackLength] at hall
  rw [length_serialiseOackPacket, maxUdpPayload]
  omega

end CppTftp.TftpServerConnection
