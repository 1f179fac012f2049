import Mathlib.Data.List.Induction
import WeisleyRpc.CodecFailures
import WeisleyRpc.CodecLimits

/-!
# The decoder stays on packet boundaries

A codec may be pushed to again after a `push` that threw. Whatever the chunks are, the
bytes it has consumed are whole packets: an exception leaves a rejected header where it is
and takes a packet with a rejected body out of the queue.
-/

namespace WeisleyRpc

/-- Whole packets, as their headers frame them, end behind so many bytes of the stream. -/
inductive PacketBoundary (bytes : Buffer) : ℕ → Prop
  | start : PacketBoundary bytes 0
  | packet {i : ℕ} {header : PacketHeader} (before : PacketBoundary bytes i)
      (decoded : decodePacketHeader ((bytes.drop i).take HEADER_LENGTH) = .ok header)
      (complete : i + HEADER_LENGTH + header.bodyLength ≤ bytes.length) :
      PacketBoundary bytes (i + HEADER_LENGTH + header.bodyLength)

/-- The body of the packet that begins at `i`. -/
def bodyAt (bytes : Buffer) (i : ℕ) (header : PacketHeader) : Buffer :=
  ((bytes.drop i).drop HEADER_LENGTH).take header.bodyLength

/-- The packets from `i` to `j` are accepted as these messages. -/
inductive DecodedPackets (c : CodecConfig) (bytes : Buffer) : ℕ → List JsValue → ℕ → Prop
  | none (i : ℕ) : DecodedPackets c bytes i [] i
  | packet {i j : ℕ} {header : PacketHeader} {message : JsValue} {messages : List JsValue}
      (decoded : decodePacketHeader ((bytes.drop i).take HEADER_LENGTH) = .ok header)
      (complete : i + HEADER_LENGTH + header.bodyLength ≤ bytes.length)
      (accepted : c.decodeBody header (bodyAt bytes i header) = .ok message)
      (rest : DecodedPackets c bytes (i + HEADER_LENGTH + header.bodyLength) messages j) :
      DecodedPackets c bytes i (message :: messages) j

/-- The header at `i` is complete and rejected. -/
def RejectedHeader (bytes : Buffer) (i : ℕ) (e : JsError) : Prop :=
  i + HEADER_LENGTH ≤ bytes.length ∧
    decodePacketHeader ((bytes.drop i).take HEADER_LENGTH) = .error e

/-- How a `push` ends that finds the stream at `i`, and how far it consumes the stream. -/
inductive PushEnds (c : CodecConfig) (bytes : Buffer) (i : ℕ) :
    Except JsError (List JsValue) → ℕ → Prop
  | returned {messages : List JsValue} {j : ℕ} (decoded : DecodedPackets c bytes i messages j)
      (incomplete : Pending (bytes.drop j)) : PushEnds c bytes i (.ok messages) j
  | header {messages : List JsValue} {j : ℕ} {e : JsError}
      (decoded : DecodedPackets c bytes i messages j) (rejected : RejectedHeader bytes j e) :
      PushEnds c bytes i (.error e) j
  | body {messages : List JsValue} {j : ℕ} {header : PacketHeader} {e : JsError}
      (decoded : DecodedPackets c bytes i messages j)
      (framed : decodePacketHeader ((bytes.drop j).take HEADER_LENGTH) = .ok header)
      (complete : j + HEADER_LENGTH + header.bodyLength ≤ bytes.length)
      (rejected : c.decodeBody header (bodyAt bytes j header) = .error e) :
      PushEnds c bytes i (.error e) (j + HEADER_LENGTH + header.bodyLength)

namespace CodecConfig
variable {c : CodecConfig} {bytes : Buffer} {i j n : ℕ} {r : Except JsError JsValue}

theorem front_drop_iff (hi : i ≤ bytes.length) :
    c.framer.front (bytes.drop i) = .frame n r ↔
      ∃ header, decodePacketHeader ((bytes.drop i).take HEADER_LENGTH) = .ok header ∧
        n = HEADER_LENGTH + header.bodyLength ∧
        i + HEADER_LENGTH + header.bodyLength ≤ bytes.length ∧
        r = c.decodeBody header (bodyAt bytes i header) := by
  rw [framer_front, front_frame_iff]
  refine exists_congr fun header => and_congr_right fun _ => and_congr_right fun hn => ?_
  rw [List.length_drop, hn]
  refine and_congr_left fun _ => ?_
  omega

theorem rejectedHeader_iff {e : JsError} (hi : i ≤ bytes.length) :
    c.framer.front (bytes.drop i) = .fatal e ↔ RejectedHeader bytes i e := by
  rw [framer_front, front_fatal_iff, RejectedHeader, List.length_drop]
  refine and_congr_left fun _ => ?_
  omega

theorem packetBoundary_of_boundary (h : c.framer.Boundary bytes i) : PacketBoundary bytes i := by
  induction h with
  | zero => exact .start
  | @frame i n r hi hf ih =>
    obtain ⟨header, hd, rfl, hle, -⟩ := (front_drop_iff hi.le_length).mp hf
    rw [← Nat.add_assoc]
    exact .packet ih hd hle

theorem decodedPackets_of_reads {messages : List JsValue} (hi : c.framer.Boundary bytes i)
    (h : c.framer.Reads bytes i messages j) : DecodedPackets c bytes i messages j := by
  induction h with
  | nil i => exact .none i
  | cons hf _ ih =>
    have hrest := ih (.frame hi hf)
    obtain ⟨header, hd, rfl, hle, hb⟩ := (front_drop_iff hi.le_length).mp hf
    rw [← Nat.add_assoc] at hrest
    exact .packet hd hle hb.symm hrest

theorem pushEnds_of_parse (hi : c.framer.Boundary bytes i) :
    ∃ j, c.framer.Boundary bytes j ∧ (c.decode (bytes.drop i)).rest = bytes.drop j ∧
      PushEnds c bytes i (outcome (c.decode (bytes.drop i)) []) j := by
  obtain ⟨k, j, hreads, hends, hrest⟩ := Framer.parse_reads (F := c.framer) bytes i
  have hk := hreads.boundary hi
  have hdecoded := decodedPackets_of_reads hi hreads
  refine ⟨j, hends.boundary hk, hrest, ?_⟩
  unfold outcome decode
  cases he : (c.framer.parse (bytes.drop i)).error with
  | none =>
    rw [he] at hends
    cases hends with
    | more hf => exact .returned hdecoded (pending_of_more hf)
  | some e =>
    rw [he] at hends
    cases hends with
    | fatal hf => exact .header hdecoded ((rejectedHeader_iff hk.le_length).mp hf)
    | rejected hf =>
      obtain ⟨header, hd, rfl, hle, hb⟩ := (front_drop_iff hk.le_length).mp hf
      rw [← Nat.add_assoc]
      exact .body hdecoded hd hle hb.symm

end CodecConfig

namespace RpcCodec

/-- How many bytes of these chunks the codec does not hold any more. -/
def consumed (codec : RpcCodec) (chunks : List Buffer) : ℕ :=
  chunks.flatten.length - (codec.pushes chunks).queue.length

/-- The codec has consumed so many bytes of the stream and holds the others. -/
structure StandsAt (codec : RpcCodec) (bytes : Buffer) (i : ℕ) : Prop where
  boundary : codec.config.framer.Boundary bytes i
  held : codec.queue.bytes = bytes.drop i

theorem StandsAt.push {codec : RpcCodec} {bytes : Buffer} {i : ℕ} (h : codec.StandsAt bytes i)
    (chunk : Buffer) :
    ∃ j, (codec.push chunk).2.StandsAt (bytes ++ chunk) j ∧
      PushEnds codec.config (bytes ++ chunk) i (codec.push chunk).1 j := by
  obtain ⟨hresult, hrest⟩ := push_eq codec chunk
  have hb := h.boundary.append chunk
  obtain ⟨j, hj, hleft, hends⟩ := CodecConfig.pushEnds_of_parse hb
  rw [List.drop_append_of_le_length h.boundary.le_length, ← h.held] at hleft hends
  refine ⟨j, ⟨?_, hrest.trans hleft⟩, hresult ▸ hends⟩
  rw [push_config]
  exact hj

theorem consumed_eq {codec : RpcCodec} {chunks : List Buffer} {i : ℕ}
    (h : (codec.pushes chunks).StandsAt chunks.flatten i) : codec.consumed chunks = i := by
  have hi := h.boundary.le_length
  rw [consumed, BufferQueue.length_eq, h.held, List.length_drop]
  omega

theorem standsAt_consumed {codec : RpcCodec} (hq : codec.queue.bytes = []) (chunks : List Buffer) :
    (codec.pushes chunks).StandsAt chunks.flatten (codec.consumed chunks) := by
  induction chunks using List.reverseRecOn with
  | nil =>
    have hstart : (codec.pushes []).StandsAt [].flatten 0 := ⟨.zero, hq⟩
    rwa [consumed_eq hstart]
  | append_singleton chunks chunk ih =>
    obtain ⟨j, hj, -⟩ := ih.push chunk
    have hnext : (codec.pushes (chunks ++ [chunk])).StandsAt (chunks ++ [chunk]).flatten j := by
      rwa [pushes_snoc, List.flatten_append, List.flatten_singleton]
    rwa [consumed_eq hnext]

/-- A rejected header in front of the queue stays there, and every `push` throws. -/
theorem push_of_fatal {codec : RpcCodec} {e : JsError}
    (h : codec.config.framer.front codec.queue.bytes = .fatal e) (chunk : Buffer) :
    (codec.push chunk).1 = .error e ∧
      (codec.push chunk).2.config.framer.front (codec.push chunk).2.queue.bytes = .fatal e := by
  obtain ⟨hresult, hrest⟩ := push_eq codec chunk
  have happ := codec.config.framer.fatal_append h chunk
  have hparse : codec.config.decode (codec.queue.bytes ++ chunk) =
      ⟨[], some e, codec.queue.bytes ++ chunk⟩ := Framer.parse_fatal happ
  rw [hparse] at hresult hrest
  refine ⟨hresult, ?_⟩
  rw [push_config, hrest]
  exact happ

theorem pushes_of_fatal {codec : RpcCodec} {e : JsError}
    (h : codec.config.framer.front codec.queue.bytes = .fatal e) (chunks : List Buffer) :
    (codec.pushes chunks).config.framer.front (codec.pushes chunks).queue.bytes = .fatal e := by
  induction chunks using List.reverseRecOn with
  | nil => exact h
  | append_singleton chunks chunk ih =>
    rw [pushes_snoc]
    exact (push_of_fatal ih chunk).2

end RpcCodec

/-- After any pushes, some of which may have thrown, the codec has consumed whole packets. The
next `push` returns the messages of the packets it consumes, or throws at a header and
leaves it, or throws at a body and consumes its packet. Once it has thrown at a header,
every later `push` throws. -/
theorem decoder_keeps_boundaries {options : RpcCodecOptions} {codec : RpcCodec}
    (hnew : RpcCodec.new options = .ok codec) (chunks : List Buffer) (chunk : Buffer) :
    PacketBoundary chunks.flatten (codec.consumed chunks) ∧
      (codec.pushes chunks).queue.bytes = chunks.flatten.drop (codec.consumed chunks) ∧
      PushEnds codec.config (chunks ++ [chunk]).flatten (codec.consumed chunks)
        ((codec.pushes chunks).push chunk).1 (codec.consumed (chunks ++ [chunk])) ∧
      ∀ e, RejectedHeader (chunks ++ [chunk]).flatten (codec.consumed (chunks ++ [chunk])) e →
        ∀ later next, ((codec.pushes (chunks ++ [chunk] ++ later)).push next).1 = .error e := by
  have hq : codec.queue.bytes = [] := by
    rw [RpcCodec.queue_new hnew]
    rfl
  have hi := RpcCodec.standsAt_consumed hq chunks
  have hj := RpcCodec.standsAt_consumed hq (chunks ++ [chunk])
  refine ⟨CodecConfig.packetBoundary_of_boundary hi.boundary, hi.held, ?_, ?_⟩
  · obtain ⟨j, hstands, hends⟩ := hi.push chunk
    have hnext : (codec.pushes (chunks ++ [chunk])).StandsAt (chunks ++ [chunk]).flatten j := by
      rwa [RpcCodec.pushes_snoc, List.flatten_append, List.flatten_singleton]
    rw [RpcCodec.pushes_config] at hends
    rw [RpcCodec.consumed_eq hnext, List.flatten_append, List.flatten_singleton]
    exact hends
  · intro e hrejected later next
    have hfatal := (CodecConfig.rejectedHeader_iff
      (c := (codec.pushes (chunks ++ [chunk])).config) hj.boundary.le_length).mpr hrejected
    rw [← hj.held] at hfatal
    rw [RpcCodec.pushes_append]
    exact (RpcCodec.push_of_fatal (RpcCodec.pushes_of_fatal hfatal later) next).1

/-- A packet, then bytes that are no header. -/
theorem decoder_keeps_boundaries_sample :
    PacketBoundary [samplePacket samplePing].flatten
        (sampleCodec.consumed [samplePacket samplePing]) ∧
      (sampleCodec.pushes [samplePacket samplePing]).queue.bytes =
        [samplePacket samplePing].flatten.drop (sampleCodec.consumed [samplePacket samplePing]) ∧
      PushEnds sampleCodec.config ([samplePacket samplePing] ++ [sampleGarbage]).flatten
        (sampleCodec.consumed [samplePacket samplePing])
        ((sampleCodec.pushes [samplePacket samplePing]).push sampleGarbage).1
        (sampleCodec.consumed ([samplePacket samplePing] ++ [sampleGarbage])) ∧
      ∀ e, RejectedHeader ([samplePacket samplePing] ++ [sampleGarbage]).flatten
          (sampleCodec.consumed ([samplePacket samplePing] ++ [sampleGarbage])) e →
        ∀ later next, ((sampleCodec.pushes ([samplePacket samplePing] ++ [sampleGarbage] ++
          later)).push next).1 = .error e :=
  @decoder_keeps_boundaries (.ofSerializer (.ofTable sampleTable)) sampleCodec rfl
    [samplePacket samplePing] sampleGarbage

end WeisleyRpc
