import WeisleyRpc.CodecStream
import WeisleyRpc.FramingErrors

/-!
# Byte streams with an invalid packet

`push` collects the messages of a chunk in a local list, which an exception discards. So
the valid messages in front of an invalid packet reach the caller exactly when the chunk
that shows the packet to be invalid completes none of them.
-/

namespace WeisleyRpc

namespace CodecConfig
variable (c : CodecConfig)

/-- How many bytes the valid packets at the front of a stream take. -/
def validLength (bytes : Buffer) : ℕ := c.framer.accepted bytes

def validMessages (bytes : Buffer) : List JsValue := (c.decode bytes).items

/-- The packet in front has a header that is rejected, or is complete with a body that is. -/
def InvalidPacket (bytes : Buffer) : Prop :=
  (HEADER_LENGTH ≤ bytes.length ∧ ∃ e, decodePacketHeader (bytes.take HEADER_LENGTH) = .error e) ∨
    ∃ header e, decodePacketHeader (bytes.take HEADER_LENGTH) = .ok header ∧
      HEADER_LENGTH + header.bodyLength ≤ bytes.length ∧
      c.decodeBody header ((bytes.drop HEADER_LENGTH).take header.bodyLength) = .error e

/-- Behind its valid packets the stream has an invalid one. -/
def Invalid (bytes : Buffer) : Prop := c.InvalidPacket (bytes.drop (c.validLength bytes))

/-- No chunk that brings the end of what makes a packet invalid brings the end of a valid
packet in front of it. -/
def Apart (chunks : List Buffer) : Prop :=
  ∀ k < chunks.length, c.Invalid (chunks.take (k + 1)).flatten →
    c.validLength chunks.flatten ≤ (chunks.take k).flatten.length

variable {c}

theorem front_frame_take {bytes : Buffer} {n : ℕ} {r : Except JsError JsValue}
    (h : c.framer.front bytes = .frame n r) : c.framer.front (bytes.take n) = .frame n r := by
  obtain ⟨header, hd, rfl, hle, rfl⟩ := front_frame_iff.mp h
  refine front_frame_iff.mpr ⟨header, ?_, rfl, ?_, ?_⟩
  · rwa [List.take_take, Nat.min_eq_left (Nat.le_add_right _ _)]
  · rw [List.length_take, Nat.min_eq_left hle]
  · rw [List.drop_take, Nat.add_sub_cancel_left, List.take_take, Nat.min_self]

theorem invalidPacket_iff {bytes : Buffer} :
    c.InvalidPacket bytes ↔
      (∃ e, c.framer.front bytes = .fatal e) ∨ ∃ n e, c.framer.front bytes = .frame n (.error e) := by
  simp only [InvalidPacket, framer_front, front_fatal_iff, front_frame_iff]
  refine or_congr (by simp) ?_
  constructor
  · rintro ⟨header, e, hd, hle, hb⟩
    exact ⟨_, e, header, hd, rfl, hle, hb.symm⟩
  · rintro ⟨n, e, header, hd, rfl, hle, hb⟩
    exact ⟨header, e, hd, hle, hb.symm⟩

/-- The parse of a stream ends in an error exactly at an invalid packet. -/
theorem invalid_iff {bytes : Buffer} : c.Invalid bytes ↔ (c.decode bytes).error ≠ none := by
  rw [Invalid, validLength, decode, invalidPacket_iff]
  induction bytes using Framer.stream_induction c.framer with
  | more xs hx => simp [Framer.accepted_of_ne (F := c.framer) xs, hx, Framer.parse_more hx]
  | fatal xs e hx =>
    simp [Framer.accepted_of_ne (F := c.framer) xs, hx, Framer.parse_fatal hx]
  | rejected xs n e hx =>
    simp [Framer.accepted_of_ne (F := c.framer) xs, hx, Framer.parse_rejected hx]
  | accepted xs n b hx ih =>
    rwa [Framer.parse_accepted hx, Framer.accepted_frame hx, ← List.drop_drop]

end CodecConfig

namespace RpcCodec

/-- The messages that the calls of `push` return before the first one that throws. -/
def handedOver : RpcCodec → List Buffer → List JsValue
  | _, [] => []
  | codec, chunk :: chunks =>
    match codec.push chunk with
    | (.error _, _) => []
    | (.ok messages, codec') => messages ++ handedOver codec' chunks

theorem handedOver_eq (codec : RpcCodec) (chunks : List Buffer) :
    codec.handedOver chunks = codec.config.framer.collect codec.queue.bytes chunks := by
  induction chunks generalizing codec with
  | nil => rfl
  | cons chunk chunks ih =>
    obtain ⟨result, codec', hpush⟩ : ∃ r k, codec.push chunk = (r, k) := ⟨_, _, rfl⟩
    obtain ⟨hp, hq⟩ := push_eq codec chunk
    have hc := push_config codec chunk
    rw [hpush] at hp hq hc
    have hnext := ih codec'
    rw [hc, hq] at hnext
    rw [handedOver, hpush, Framer.collect]
    simp only [CodecConfig.outcome, CodecConfig.decode] at hp hnext
    cases he : (codec.config.framer.parse (codec.queue.bytes ++ chunk)).error with
    | some e => simp [hp, he]
    | none => simp [hp, he, hnext]

end RpcCodec

section Cuts
variable {options : RpcCodecOptions} {codec : RpcCodec} {chunks chunks' : List Buffer}

theorem handedOver_eq_iff (hnew : RpcCodec.new options = .ok codec) :
    codec.handedOver chunks = codec.config.validMessages chunks.flatten ↔
      codec.config.Apart chunks := by
  have hq : codec.queue.bytes = [] := by
    rw [RpcCodec.queue_new hnew]
    rfl
  have h := Framer.collect_eq_iff codec.config.framer.front_nil
    CodecConfig.front_frame_take chunks
  simp only [List.nil_append, List.length_nil, Nat.zero_add] at h
  rw [RpcCodec.handedOver_eq, hq]
  simp only [CodecConfig.Apart, CodecConfig.invalid_iff]
  exact h

/-- Two ways of cutting a stream both hand over its valid messages exactly when neither
brings the invalid packet together with the end of a valid one. -/
theorem cuts_agree_iff (hnew : RpcCodec.new options = .ok codec)
    (hcut : chunks.flatten = chunks'.flatten) :
    (codec.handedOver chunks = codec.handedOver chunks' ∧
        codec.handedOver chunks = codec.config.validMessages chunks.flatten) ↔
      codec.config.Apart chunks ∧ codec.config.Apart chunks' := by
  rw [← handedOver_eq_iff hnew, ← handedOver_eq_iff hnew, ← hcut]
  constructor
  · intro h
    exact ⟨h.2, h.1 ▸ h.2⟩
  · intro h
    exact ⟨h.1.trans h.2.symm, h.1⟩

end Cuts

/-- A header without the magic number. -/
def sampleGarbage : Buffer := List.replicate HEADER_LENGTH 0

theorem coalesced_message_lost :
    sampleCodec.handedOver [samplePacket samplePing, sampleGarbage] = [samplePing] ∧
      sampleCodec.handedOver [samplePacket samplePing ++ sampleGarbage] = [] ∧
      sampleCodec.config.validMessages (samplePacket samplePing ++ sampleGarbage) = [samplePing] := by
  decide +kernel

theorem cuts_agree_iff_sample :
    (sampleCodec.handedOver [samplePacket samplePing, sampleGarbage] =
          sampleCodec.handedOver
            [(samplePacket samplePing).take 4, (samplePacket samplePing).drop 4, sampleGarbage] ∧
        sampleCodec.handedOver [samplePacket samplePing, sampleGarbage] =
          sampleCodec.config.validMessages [samplePacket samplePing, sampleGarbage].flatten) ↔
      sampleCodec.config.Apart [samplePacket samplePing, sampleGarbage] ∧
        sampleCodec.config.Apart
          [(samplePacket samplePing).take 4, (samplePacket samplePing).drop 4, sampleGarbage] :=
  @cuts_agree_iff (.ofSerializer (.ofTable sampleTable)) sampleCodec _ _ rfl
    (by simp [← List.append_assoc])

end WeisleyRpc
