import Mathlib.Data.List.Infix
import TtsServer.Lib.Backlog
import TtsServer.Lib.Text
import TtsServer.Messages

/-!
# Receiving lines from the connection

The upstream connection hands over bytes in fragments, and the transport cuts them into
lines. Each receive callback appends its fragment to a buffer and then takes at most one
line out of it. No byte is lost or reordered. But a fragment with several newlines leaves
lines in the buffer, and each of them waits for a later callback: the newlines in the
buffer are the backlog of a server that takes one item for each arrival.
-/

namespace TtsServer

open Lib

/-- The character at which lines end. -/
def newline : UInt8 := 0x0A

/-- The receiving side of `LwsClient`: the buffer, and the text frames that have been passed to
`on_frame_`. -/
structure LwsClient where
  recvBuffer : Bytes := []
  frames : List Bytes := []
  deriving DecidableEq, Repr

namespace LwsClient

/-- The case `LWS_CALLBACK_CLIENT_RECEIVE` of `callback`. -/
def receive (client : LwsClient) (chunk : Bytes) : LwsClient :=
  if chunk.length > 0 then
    let buffer := client.recvBuffer ++ chunk
    match buffer.findIdx? (· == newline) with
    | some pos =>
      { recvBuffer := buffer.drop (pos + 1), frames := client.frames ++ [buffer.take pos] }
    | none => { client with recvBuffer := buffer }
  else client

/-- The receive callbacks of a connection. -/
def receiveAll (chunks : List Bytes) : LwsClient := chunks.foldl receive {}

end LwsClient

/-- The text consists of the lines, each ended by a newline, and a rest without one. -/
structure SplitsInto (text : Bytes) (lines : List Bytes) (rest : Bytes) : Prop where
  text_eq : text = lines.flatMap (· ++ [newline]) ++ rest
  lines_ended : ∀ line ∈ lines, newline ∉ line
  rest_unended : newline ∉ rest

namespace LwsClient

variable {client : LwsClient} {chunk : Bytes} {chunks : List Bytes}

/-- What a callback with a fragment does: it takes out the first line of the buffer, if the
buffer has a line. -/
theorem receive_cases (hchunk : chunk ≠ []) :
    (newline ∉ client.recvBuffer ++ chunk ∧
      client.receive chunk = { client with recvBuffer := client.recvBuffer ++ chunk }) ∨
    ∃ line rest, client.recvBuffer ++ chunk = line ++ newline :: rest ∧ newline ∉ line ∧
      client.receive chunk = { recvBuffer := rest, frames := client.frames ++ [line] } := by
  have hlen : chunk.length > 0 := List.length_pos_of_ne_nil hchunk
  simp only [receive, if_pos hlen]
  cases hfind : (client.recvBuffer ++ chunk).findIdx? (· == newline) with
  | none =>
    left
    rw [List.findIdx?_eq_none_iff] at hfind
    refine ⟨fun hmem => ?_, rfl⟩
    simpa using hfind newline hmem
  | some pos =>
    right
    have hpos := (List.findIdx?_eq_some_iff_findIdx_eq.mp hfind).1
    obtain ⟨b, rest, hbuffer, hb, hline⟩ := findIdx?_take_iff.mp ⟨pos, hfind, rfl⟩
    obtain rfl : b = newline := by simpa using hb
    refine ⟨_, rest, hbuffer, fun hmem => ?_, ?_⟩
    · simpa using hline newline hmem
    · have hdrop : (client.recvBuffer ++ chunk).drop (pos + 1) = rest := by
        have hlength : ((client.recvBuffer ++ chunk).take pos).length = pos := by
          rw [List.length_take]
          omega
        rw [← List.drop_drop, hbuffer, List.drop_left' hlength]
        rfl
      simp only [hdrop]

/-- A buffer and the frames passed on so far, from which the received bytes can be read off. -/
structure Holds (client : LwsClient) (text : Bytes) : Prop where
  text_eq : text = client.frames.flatMap (· ++ [newline]) ++ client.recvBuffer
  lines_ended : ∀ line ∈ client.frames, newline ∉ line

/-- A callback keeps every byte in its place. -/
theorem Holds.receive {text : Bytes} (h : client.Holds text) (hchunk : chunk ≠ []) :
    (client.receive chunk).Holds (text ++ chunk) := by
  obtain ⟨-, hreceive⟩ | ⟨line, rest, hbuffer, hline, hreceive⟩ := receive_cases hchunk
  · rw [hreceive]
    exact ⟨by rw [h.text_eq, List.append_assoc], h.lines_ended⟩
  · rw [hreceive]
    constructor
    · rw [h.text_eq, List.append_assoc, hbuffer, List.flatMap_append]
      simp
    · intro line' hmem
      obtain hmem | hmem := List.mem_append.mp hmem
      · exact h.lines_ended line' hmem
      · obtain rfl := List.mem_singleton.mp hmem
        exact hline

/-- A callback takes one newline out of the buffer, if it has one. -/
theorem count_receive (hchunk : chunk ≠ []) :
    (client.receive chunk).recvBuffer.count newline =
      client.recvBuffer.count newline + chunk.count newline - 1 := by
  rw [← List.count_append]
  obtain ⟨hnone, hreceive⟩ | ⟨line, rest, hbuffer, hline, hreceive⟩ := receive_cases hchunk
  · rw [hreceive, List.count_eq_zero_of_not_mem hnone]
  · have hcount : (line ++ newline :: rest).count newline = rest.count newline + 1 := by
      rw [List.count_append, List.count_eq_zero_of_not_mem hline, List.count_cons_self]
      omega
    rw [hreceive, hbuffer, hcount]
    rfl

/-- Whatever has been received is in the frames and the buffer, and the newlines in the buffer
are the backlog of the callbacks. -/
theorem receiveAll_spec (hne : ∀ chunk ∈ chunks, chunk ≠ []) :
    (receiveAll chunks).Holds chunks.flatten ∧
      (receiveAll chunks).recvBuffer.count newline = backlog (List.count newline) chunks := by
  induction chunks using List.reverseRecOn with
  | nil => exact ⟨⟨rfl, by simp [receiveAll]⟩, rfl⟩
  | append_singleton chunks chunk ih =>
    obtain ⟨hholds, hcount⟩ := ih fun c hc => hne c (by simp [hc])
    have hchunk : chunk ≠ [] := hne chunk (by simp)
    have hstep : receiveAll (chunks ++ [chunk]) = (receiveAll chunks).receive chunk := by
      rw [receiveAll, List.foldl_append]
      rfl
    rw [hstep, backlog_concat, count_receive hchunk, hcount]
    refine ⟨?_, rfl⟩
    simpa using hholds.receive hchunk

/-- After some receive callbacks, the lines received have all been passed on and the buffer
holds what follows them, exactly if in no final stretch of the callbacks more newlines arrive
than there are callbacks. -/
theorem receive_framing_iff (hne : ∀ chunk ∈ chunks, chunk ≠ []) :
    SplitsInto chunks.flatten (receiveAll chunks).frames (receiveAll chunks).recvBuffer ↔
      ∀ late, late <:+ chunks → late.flatten.count newline ≤ late.length := by
  obtain ⟨hholds, hcount⟩ := receiveAll_spec hne
  have hsplits : SplitsInto chunks.flatten (receiveAll chunks).frames
      (receiveAll chunks).recvBuffer ↔ newline ∉ (receiveAll chunks).recvBuffer :=
    ⟨SplitsInto.rest_unended, fun hrest => ⟨hholds.text_eq, hholds.lines_ended, hrest⟩⟩
  rw [hsplits, ← List.count_eq_zero, hcount, ← Nat.le_zero, backlog_le_iff]
  simp only [List.count_flatten, Nat.add_zero]

/-- Two lines in three fragments. -/
theorem receive_framing_iff_halves :
    (∀ chunk ∈ [ascii "a", newline :: ascii "b", [newline]], chunk ≠ []) ∧
      SplitsInto [ascii "a", newline :: ascii "b", [newline]].flatten
        (receiveAll [ascii "a", newline :: ascii "b", [newline]]).frames
        (receiveAll [ascii "a", newline :: ascii "b", [newline]]).recvBuffer := by
  have hne : ∀ chunk ∈ [ascii "a", newline :: ascii "b", [newline]], chunk ≠ [] := by decide
  refine ⟨hne, (receive_framing_iff hne).mpr fun late hlate => ?_⟩
  have hall : [ascii "a", newline :: ascii "b", [newline]].tails.all
      fun late => late.flatten.count newline ≤ late.length := by decide
  simpa using List.all_eq_true.mp hall late ((List.mem_tails _ _).mpr hlate)

/-- A fragment with two lines: only the first is passed on, and the second stays in the
buffer together with its newline. -/
theorem receive_two_lines :
    receiveAll [ascii "a" ++ newline :: ascii "b" ++ [newline]] =
        { recvBuffer := ascii "b" ++ [newline], frames := [ascii "a"] } ∧
      ¬SplitsInto [ascii "a" ++ newline :: ascii "b" ++ [newline]].flatten
        [ascii "a"] (ascii "b" ++ [newline]) :=
  ⟨by decide, fun h => h.rest_unended (by decide)⟩

end LwsClient

end TtsServer
