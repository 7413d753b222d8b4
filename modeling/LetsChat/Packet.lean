import LetsChat.Messages

/-! The packet header of `packet.h`, and the push packet that the logic server
builds by itself. -/

namespace LetsChat
open Lib Endian

def HEADER_LEN : Nat := 12

structure PacketHeader where
  length : BitVec 32
  version : BitVec 16
  cmd_id : BitVec 16
  seq_id : BitVec 32
  deriving DecidableEq

section Host
variable (host : ByteOrder)

def htonl (x : BitVec 32) : BitVec 32 := hton 4 host x
def htons (x : BitVec 16) : BitVec 16 := hton 2 host x
def ntohl (x : BitVec 32) : BitVec 32 := hton 4 host x
def ntohs (x : BitVec 16) : BitVec 16 := hton 2 host x

/-- The 12 bytes that the four copies leave in the buffer. -/
def encodeHeader (header : PacketHeader) : Bytes :=
  store 4 host (htonl host header.length) ++ store 2 host (htons host header.version)
    ++ store 2 host (htons host header.cmd_id) ++ store 4 host (htonl host header.seq_id)

def decodeHeader (buffer : Bytes) : PacketHeader where
  length := ntohl host (load 32 host (buffer.take 4))
  version := ntohs host (load 16 host ((buffer.drop 4).take 2))
  cmd_id := ntohs host (load 16 host ((buffer.drop 6).take 2))
  seq_id := ntohl host (load 32 host ((buffer.drop 8).take 4))

def packPushMsg (pb : Protobuf) (chat_msg : ChatMsg) : Bytes :=
  let body_bytes := pb.serializeMsgPush { msg := chat_msg }
  let total_len : BitVec 32 := BitVec.ofNat 32 (12 + body_bytes.length)
  let version : BitVec 16 := 1
  let cmd_id : BitVec 16 := 0x1005
  let seq_id : BitVec 32 := 0
  store 4 host (htonl host total_len) ++ store 2 host (htons host version)
    ++ store 2 host (htons host cmd_id) ++ store 4 host (htonl host seq_id) ++ body_bytes

end Host

/-- The fields in network order at the offsets that the readme gives them. -/
structure InNetworkOrder (buffer : Bytes) (header : PacketHeader) : Prop where
  size : buffer.length = HEADER_LEN
  length_at : buffer.take 4 = store 4 .big header.length
  version_at : (buffer.drop 4).take 2 = store 2 .big header.version
  cmd_id_at : (buffer.drop 6).take 2 = store 2 .big header.cmd_id
  seq_id_at : (buffer.drop 8).take 4 = store 4 .big header.seq_id

@[simp] theorem length_encodeHeader (host : ByteOrder) (header : PacketHeader) :
    (encodeHeader host header).length = HEADER_LEN := by
  simp only [encodeHeader, List.length_append, length_store, HEADER_LEN]

theorem encodeHeader_inNetworkOrder (host : ByteOrder) (header : PacketHeader) :
    InNetworkOrder (encodeHeader host header) header := by
  have hbytes : encodeHeader host header = store 4 .big header.length ++
      (store 2 .big header.version ++ (store 2 .big header.cmd_id ++ store 4 .big header.seq_id)) := by
    unfold encodeHeader htonl htons
    rw [store_hton rfl, store_hton rfl, store_hton rfl, store_hton rfl, List.append_assoc,
      List.append_assoc]
  -- the rest of the buffer behind each of the first three fields
  have hversion : (encodeHeader host header).drop 4 = store 2 .big header.version ++
      (store 2 .big header.cmd_id ++ store 4 .big header.seq_id) := by
    rw [hbytes]
    exact List.drop_left' (length_store 4 .big _)
  have hcmd : (encodeHeader host header).drop 6 =
      store 2 .big header.cmd_id ++ store 4 .big header.seq_id := by
    rw [← List.drop_drop (i := 2) (j := 4), hversion]
    exact List.drop_left' (length_store 2 .big _)
  have hseq : (encodeHeader host header).drop 8 = store 4 .big header.seq_id := by
    rw [← List.drop_drop (i := 2) (j := 6), hcmd]
    exact List.drop_left' (length_store 2 .big _)
  refine ⟨length_encodeHeader host header, ?_, ?_, ?_, ?_⟩
  · rw [hbytes]
    exact List.take_left' (length_store 4 .big _)
  · rw [hversion]
    exact List.take_left' (length_store 2 .big _)
  · rw [hcmd]
    exact List.take_left' (length_store 2 .big _)
  · rw [hseq]
    exact List.take_of_length_le (Nat.le_of_eq (length_store 4 .big _))

theorem InNetworkOrder.decode {buffer : Bytes} {header : PacketHeader}
    (h : InNetworkOrder buffer header) (host : ByteOrder) : decodeHeader host buffer = header := by
  have hword : ∀ {w n : Nat} (_ : w = 8 * n) (x : BitVec w),
      hton n host (load w host (store n .big x)) = x := by
    intro w n hw x
    rw [hton_load hw host (length_store n .big x), load_store hw]
  unfold decodeHeader ntohl ntohs
  rw [h.length_at, h.version_at, h.cmd_id_at, h.seq_id_at, hword rfl, hword rfl, hword rfl,
    hword rfl]

theorem decodeHeader_inNetworkOrder (host : ByteOrder) {buffer : Bytes}
    (hsize : buffer.length = HEADER_LEN) : InNetworkOrder buffer (decodeHeader host buffer) := by
  have hfield : ∀ {w n : Nat} (_ : w = 8 * n) {bytes : Bytes}, bytes.length = n →
      bytes = store n .big (hton n host (load w host bytes)) := by
    intro w n hw bytes hbytes
    rw [hton_load hw host hbytes, store_load hw .big hbytes]
  have hpart : ∀ off n : Nat, off + n ≤ HEADER_LEN → ((buffer.drop off).take n).length = n := by
    intro off n hle
    rw [List.length_take, List.length_drop, hsize]
    omega
  exact ⟨hsize, hfield rfl (hpart 0 4 (by decide)), hfield rfl (hpart 4 2 (by decide)),
    hfield rfl (hpart 6 2 (by decide)), hfield rfl (hpart 8 4 (by decide))⟩

theorem InNetworkOrder.unique {b₁ b₂ : Bytes} {header : PacketHeader}
    (h₁ : InNetworkOrder b₁ header) (h₂ : InNetworkOrder b₂ header) : b₁ = b₂ := by
  have hsplit : ∀ {b : Bytes}, InNetworkOrder b header → b = store 4 .big header.length ++
      (store 2 .big header.version ++ (store 2 .big header.cmd_id ++ store 4 .big header.seq_id)) := by
    intro b h
    have hrest : (b.drop 8).take 4 = b.drop 8 :=
      List.take_of_length_le (by rw [List.length_drop, h.size]; decide)
    calc b = b.take 4 ++ ((b.drop 4).take 2 ++ ((b.drop 6).take 2 ++ b.drop 8)) := by
          rw [← List.drop_drop (i := 2) (j := 6), List.take_append_drop,
            ← List.drop_drop (i := 2) (j := 4), List.take_append_drop, List.take_append_drop]
      _ = _ := by rw [← hrest, h.length_at, h.version_at, h.cmd_id_at, h.seq_id_at]
  rw [hsplit h₁, hsplit h₂]

theorem decodeHeader_encodeHeader (host : ByteOrder) (header : PacketHeader) :
    decodeHeader host (encodeHeader host header) = header :=
  (encodeHeader_inNetworkOrder host header).decode host

theorem encodeHeader_decodeHeader (host gateway : ByteOrder) {buffer : Bytes}
    (hsize : buffer.length = HEADER_LEN) :
    encodeHeader host (decodeHeader gateway buffer) = buffer := by
  have hread : InNetworkOrder buffer (decodeHeader gateway buffer) :=
    decodeHeader_inNetworkOrder gateway hsize
  exact (encodeHeader_inNetworkOrder host _).unique hread

theorem decodeHeader_append (host : ByteOrder) {buffer : Bytes} (body : Bytes)
    (hsize : buffer.length = HEADER_LEN) :
    decodeHeader host (buffer ++ body) = decodeHeader host buffer := by
  have hfield : ∀ off n : Nat, off + n ≤ HEADER_LEN →
      ((buffer ++ body).drop off).take n = (buffer.drop off).take n := by
    intro off n hle
    rw [List.drop_append_of_le_length (by omega), List.take_append_of_le_length]
    rw [List.length_drop]
    omega
  have hlength : (buffer ++ body).take 4 = buffer.take 4 := hfield 0 4 (by decide)
  unfold decodeHeader
  rw [hlength, hfield 4 2 (by decide), hfield 6 2 (by decide), hfield 8 4 (by decide)]

theorem packPushMsg_eq (host : ByteOrder) (pb : Protobuf) (chat_msg : ChatMsg) :
    packPushMsg host pb chat_msg =
      encodeHeader host ⟨BitVec.ofNat 32 (12 + (pb.serializeMsgPush ⟨chat_msg⟩).length), 1, 0x1005, 0⟩
        ++ pb.serializeMsgPush ⟨chat_msg⟩ := rfl

theorem drop_packPushMsg (host : ByteOrder) (pb : Protobuf) (chat_msg : ChatMsg) :
    (packPushMsg host pb chat_msg).drop HEADER_LEN = pb.serializeMsgPush ⟨chat_msg⟩ := by
  rw [packPushMsg_eq]
  exact List.drop_left' (length_encodeHeader host _)

theorem decodeHeader_packPushMsg (host gateway : ByteOrder) (pb : Protobuf) (chat_msg : ChatMsg)
    (hsize : (pb.serializeMsgPush ⟨chat_msg⟩).length ≤ 2 ^ 31 - 1) :
    (decodeHeader gateway (packPushMsg host pb chat_msg)).length.toNat =
      (packPushMsg host pb chat_msg).length := by
  have hlen : (packPushMsg host pb chat_msg).length =
      12 + (pb.serializeMsgPush ⟨chat_msg⟩).length := by
    rw [packPushMsg_eq, List.length_append, length_encodeHeader, HEADER_LEN]
  rw [hlen, packPushMsg_eq, decodeHeader_append gateway _ (length_encodeHeader host _),
    (encodeHeader_inNetworkOrder host _).decode gateway, BitVec.toNat_ofNat]
  apply Nat.mod_eq_of_lt
  omega

/-- Two encoders and one decoder, on hosts that need not agree on their byte order. -/
theorem headers_share_one_format (host gateway : ByteOrder) (pb : Protobuf) :
    (∀ header, decodeHeader gateway (encodeHeader host header) = header ∧
      InNetworkOrder (encodeHeader host header) header) ∧
    (∀ buffer : Bytes, buffer.length = HEADER_LEN →
      encodeHeader host (decodeHeader gateway buffer) = buffer) ∧
    ∀ chat_msg, (pb.serializeMsgPush ⟨chat_msg⟩).length ≤ 2 ^ 31 - 1 →
      packPushMsg host pb chat_msg = encodeHeader host
        ⟨BitVec.ofNat 32 (12 + (pb.serializeMsgPush ⟨chat_msg⟩).length), 1, 0x1005, 0⟩
          ++ pb.serializeMsgPush ⟨chat_msg⟩ ∧
      (decodeHeader gateway (packPushMsg host pb chat_msg)).length.toNat =
        (packPushMsg host pb chat_msg).length := by
  refine ⟨fun header => ?_, fun buffer hsize => ?_, fun chat_msg hsize => ?_⟩
  · have hformat : InNetworkOrder (encodeHeader host header) header :=
      encodeHeader_inNetworkOrder host header
    exact ⟨hformat.decode gateway, hformat⟩
  · exact encodeHeader_decodeHeader host gateway hsize
  · exact ⟨packPushMsg_eq host pb chat_msg, decodeHeader_packPushMsg host gateway pb chat_msg hsize⟩

def emptyPush : Protobuf :=
  ⟨fun _ => none, fun _ => none, fun _ => none, fun _ => none, fun _ => [], fun _ => [], fun _ => [],
    fun _ => [], fun _ => [0x0a, 0x00]⟩

theorem headers_share_one_format_emptyPush :
    (emptyPush.serializeMsgPush ⟨{}⟩).length ≤ 2 ^ 31 - 1 ∧
    (decodeHeader .big (packPushMsg .little emptyPush {})).length.toNat =
      (packPushMsg .little emptyPush {}).length :=
  ⟨by decide, ((headers_share_one_format .little .big emptyPush).2.2 {} (by decide)).2⟩

end LetsChat
