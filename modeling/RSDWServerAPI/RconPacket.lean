import RSDWServerAPI.Bytes
import RSDWServerAPI.Socket
import Mathlib.Data.List.TakeWhile

/-!
# `rcon/rcon_server.cpp`: packets on a stream

A packet goes over the wire as its size, its id and its type, four bytes each with the least
significant one first, then its body and two zero bytes. `ReadPacket` collects the size and as
many bytes as it says, and takes the body up to its first zero byte.

## Main results

* `readPackets_sendPackets`: **packets that are written back to back are read back**, whatever
  the segments, and nothing behind them is touched.
* `readPacket_consumes`: on any stream a packet that is read takes its size and four bytes.
* `responsePackets_spec`: a response is the bodies of its packets, one behind the other.
* `framing_lossless`: **the framing is lossless**, over whole streams.
-/

namespace RSDWServerAPI.Rcon

open Socket

/-! ### Numbers on the wire -/

/-- The bytes of an `int32_t` in memory. -/
def int32Bytes (i : Int32) : Bytes :=
  let n := i.toUInt32.toNat
  [UInt8.ofNat n, UInt8.ofNat (n / 256), UInt8.ofNat (n / 65536), UInt8.ofNat (n / 16777216)]

/-- The `int32_t` with these bytes in memory. -/
def int32Of (s : Bytes) : Int32 :=
  let n := s.foldr (fun c n => c.toNat + 256 * n) 0
  (UInt32.ofNat n).toInt32

/-- A number takes four bytes. -/
@[simp] theorem int32Bytes_length (i : Int32) : (int32Bytes i).length = 4 := rfl

/-- An `int32_t` is read back. -/
theorem int32Of_int32Bytes (i : Int32) : int32Of (int32Bytes i) = i := by
  have hlt := i.toUInt32.toNat_lt
  have hsum : (int32Bytes i).foldr (fun c n => c.toNat + 256 * n) 0 = i.toUInt32.toNat := by
    simp only [int32Bytes, List.foldr_cons, List.foldr_nil, UInt8.toNat_ofNat']
    omega
  rw [int32Of, hsum, UInt32.ofNat_toNat]
  rfl

/-! ### Packets -/

/-- What `ReadPacket` leaves in its three references. -/
structure Packet where
  id : Int32
  type : Int32
  body : Bytes
  deriving DecidableEq, Repr

/-- `kMaxBody`. -/
def maxBody : ℕ := 3900

/-- `kMaxPacketSize`. -/
def maxPacketSize : ℤ := 8192

/-- `ReadExactly`: the bytes, `none` for a `false` return, and what is left. -/
def readExactly (length : ℕ) (net : Net UInt8) : Option Bytes × Net UInt8 :=
  let read := recvLoop length length length [] net
  (if read.1.length < length then none else some read.1, read.2)

/-- The packet in a payload. -/
def packetOf (payload : Bytes) : Packet where
  id := int32Of (payload.take 4)
  type := int32Of ((payload.drop 4).take 4)
  body := (payload.drop 8).takeWhile fun c => c != 0

/-- `ReadPacket`. -/
def readPacket (net : Net UInt8) : Option Packet × Net UInt8 :=
  match readExactly 4 net with
  | (none, net) => (none, net)
  | (some head, net) =>
      let size := (int32Of head).toInt
      if size < 10 ∨ maxPacketSize < size then (none, net)
      else
        match readExactly size.toNat net with
        | (none, net) => (none, net)
        | (some payload, net) => (some (packetOf payload), net)

/-- `SendPacket`: the bytes that it sends. -/
def sendPacket (p : Packet) : Bytes :=
  let size := Int32.ofNat (4 + 4 + p.body.length + 2)
  int32Bytes size ++ int32Bytes p.id ++ int32Bytes p.type ++ p.body ++ [0, 0]

/-! ### Reading -/

/-- What `ReadExactly` returns is as long as it asks for, and is taken off what arrives. -/
theorem readExactly_some {length : ℕ} (hpos : 0 < length) {net rest : Net UInt8} {x : Bytes}
    (h : readExactly length net = (some x, rest)) :
    x.length = length ∧ arrived net = x ++ arrived rest := by
  have hread : (recvLoop length length length [] net).1 =
      [] ++ (arrived net).take (length - ([] : Bytes).length) := recvLoop_eq hpos (by simp)
  have hrest : length ≤ ([] : Bytes).length + (arrived net).length →
      [] ++ arrived net = (recvLoop length length length [] net).1 ++
        arrived (recvLoop length length length [] net).2 := recvLoop_rest hpos (by simp)
  rw [readExactly] at h
  generalize recvLoop length length length [] net = r at h hread hrest
  split_ifs at h with hshort
  · cases h
  · obtain ⟨rfl, rfl⟩ : r.1 = x ∧ r.2 = rest := by simpa using h
    rw [hread] at hshort ⊢
    simp only [List.nil_append, List.length_nil, Nat.sub_zero, List.length_take, Nat.zero_add]
      at hshort hrest hread ⊢
    refine ⟨by omega, ?_⟩
    rw [← hread]
    exact hrest (by omega)

/-- `ReadExactly` takes what it asks for off what arrives, if that much arrives. -/
theorem readExactly_of_arrived {x y : Bytes} (hpos : 0 < x.length) {net : Net UInt8}
    (h : arrived net = x ++ y) :
    ∃ rest, readExactly x.length net = (some x, rest) ∧ arrived rest = y := by
  have hread : (recvLoop x.length x.length x.length [] net).1 =
      [] ++ (arrived net).take (x.length - ([] : Bytes).length) := recvLoop_eq hpos (by simp)
  have hx : (recvLoop x.length x.length x.length [] net).1 = x := by
    rw [hread, h]
    simp
  have hsome : readExactly x.length net =
      (some x, (recvLoop x.length x.length x.length [] net).2) := by
    rw [readExactly, hx, if_neg (lt_irrefl _)]
  refine ⟨_, hsome, ?_⟩
  have := (readExactly_some hpos hsome).2
  rw [h] at this
  exact (List.append_cancel_left this).symm

/-- **What a packet takes off the stream**: its size, between 10 and 8192, and as many bytes. -/
theorem readPacket_consumes {net rest : Net UInt8} {p : Packet}
    (h : readPacket net = (some p, rest)) :
    ∃ head payload, arrived net = head ++ payload ++ arrived rest ∧ head.length = 4 ∧
      (payload.length : ℤ) = (int32Of head).toInt ∧ 10 ≤ payload.length ∧
      payload.length ≤ 8192 ∧ p = packetOf payload := by
  rw [readPacket] at h
  cases hhead : readExactly 4 net with
  | mk head? net₁ =>
      rw [hhead] at h
      cases head? with
      | none => cases h
      | some head =>
          obtain ⟨hlen, harrived⟩ := readExactly_some (by decide) hhead
          dsimp only at h
          split_ifs at h with hsize
          · cases h
          · obtain ⟨hlo, hhi⟩ := not_or.mp hsize
            rw [maxPacketSize] at hhi
            have hpos : 0 < (int32Of head).toInt.toNat := by omega
            cases hpayload : readExactly (int32Of head).toInt.toNat net₁ with
            | mk payload? net₂ =>
                rw [hpayload] at h
                cases payload? with
                | none => cases h
                | some payload =>
                    obtain ⟨hlen', harrived'⟩ := readExactly_some hpos hpayload
                    obtain ⟨rfl, rfl⟩ : packetOf payload = p ∧ net₂ = rest := by simpa using h
                    refine ⟨head, payload, ?_, hlen, by omega, by omega, by omega, rfl⟩
                    rw [harrived, harrived', List.append_assoc]

/-- A body that the framing carries: no zero byte, and no more than fits. -/
def Packet.Framed (p : Packet) : Prop :=
  0 ∉ p.body ∧ p.body.length ≤ 8182

instance (p : Packet) : Decidable p.Framed :=
  inferInstanceAs (Decidable (0 ∉ p.body ∧ p.body.length ≤ 8182))

/-- The packet in the payload that `SendPacket` writes. -/
theorem packetOf_payload {p : Packet} (h : p.Framed) :
    packetOf (int32Bytes p.id ++ int32Bytes p.type ++ p.body ++ [0, 0]) = p := by
  have hsplit : packetOf (int32Bytes p.id ++ int32Bytes p.type ++ p.body ++ [0, 0]) =
      { id := int32Of (int32Bytes p.id), type := int32Of (int32Bytes p.type),
        body := (p.body ++ [0, 0]).takeWhile fun c => c != 0 } := rfl
  have hbody : ∀ c ∈ p.body, (c != 0) = true := fun c hc => by
    simpa using ne_of_mem_of_not_mem hc h.1
  rw [hsplit, int32Of_int32Bytes, int32Of_int32Bytes, List.takeWhile_append_of_pos hbody,
    List.takeWhile_cons_of_neg (by decide), List.append_nil]

/-- The size that `SendPacket` writes. -/
theorem toInt_size {n : ℕ} (h : n ≤ 8182) : (Int32.ofNat (4 + 4 + n + 2)).toInt = n + 10 := by
  rw [Int32.toInt_ofNat_of_lt (by omega)]
  omega

/-- **A packet that has been written is read**, and what follows it is left. -/
theorem readPacket_sendPacket {p : Packet} (hp : p.Framed) {net : Net UInt8} {y : Bytes}
    (h : arrived net = sendPacket p ++ y) :
    ∃ rest, readPacket net = (some p, rest) ∧ arrived rest = y := by
  have hsize := toInt_size hp.2
  have hle := hp.2
  let payload := int32Bytes p.id ++ int32Bytes p.type ++ p.body ++ [0, 0]
  have hlen : payload.length = p.body.length + 10 := by
    simp [payload]
    omega
  have hsplit : arrived net =
      int32Bytes (Int32.ofNat (4 + 4 + p.body.length + 2)) ++ (payload ++ y) := by
    rw [h, sendPacket]
    simp [payload]
  obtain ⟨net₁, hhead, harrived⟩ := readExactly_of_arrived (by simp) hsplit
  obtain ⟨net₂, hpayload, hrest⟩ := readExactly_of_arrived (by omega) harrived
  refine ⟨net₂, ?_, hrest⟩
  rw [int32Bytes_length] at hhead
  have hnat : ((p.body.length : ℤ) + 10).toNat = payload.length := by omega
  rw [readPacket, hhead]
  dsimp only
  rw [int32Of_int32Bytes, hsize, if_neg (by rw [maxPacketSize]; omega), hnat, hpayload]
  dsimp only
  rw [packetOf_payload hp]

/-! ### Many packets -/

/-- Successive calls of `ReadPacket`, none of which fails: what they return, and what is
left. -/
def readPackets : ℕ → Net UInt8 → Option (List Packet × Net UInt8)
  | 0, net => some ([], net)
  | n + 1, net =>
      match readPacket net with
      | (none, _) => none
      | (some p, net) => (readPackets n net).map fun read => (p :: read.1, read.2)

/-- **Packets written back to back are read back**, and nothing behind them is touched. -/
theorem readPackets_sendPackets {ps : List Packet} (hps : ∀ p ∈ ps, p.Framed) {net : Net UInt8}
    {y : Bytes} (h : arrived net = ps.flatMap sendPacket ++ y) :
    ∃ rest, readPackets ps.length net = some (ps, rest) ∧ arrived rest = y := by
  induction ps generalizing net with
  | nil => exact ⟨net, rfl, h⟩
  | cons p ps ih =>
      rw [List.flatMap_cons, List.append_assoc] at h
      obtain ⟨net₁, hp, harrived⟩ := readPacket_sendPacket (hps p List.mem_cons_self) h
      obtain ⟨rest, hread, hrest⟩ := ih (fun q hq => hps q (List.mem_cons_of_mem _ hq)) harrived
      refine ⟨rest, ?_, hrest⟩
      rw [List.length_cons, readPackets, hp]
      dsimp only
      rw [hread]
      rfl

/-! ### Responses -/

/-- The loop of `SendResponseBody`: the parts of a body, at most `maxBody` bytes each. -/
def bodyParts (body : Bytes) : List Bytes :=
  (List.range ((body.length + maxBody - 1) / maxBody)).map fun i =>
    (body.drop (i * maxBody)).take maxBody

/-- `SendResponseBody`: the packets that it sends. -/
def responsePackets (id : Int32) (body : Bytes) : List Packet :=
  if body.length ≤ maxBody then [{ id := id, type := 0, body := body }]
  else (bodyParts body).map (Packet.mk id 0)

/-- `SendResponseBody`: the bytes that it sends, while `send` does not fail. -/
def sendResponseBody (id : Int32) (body : Bytes) : Bytes :=
  (responsePackets id body).flatMap sendPacket

/-- The first parts of a body, one behind the other. -/
theorem flatten_parts (k n : ℕ) (body : Bytes) :
    ((List.range n).map fun i => (body.drop (i * k)).take k).flatten = body.take (n * k) := by
  induction n with
  | zero => simp
  | succ n ih =>
      rw [List.range_succ, List.map_append, List.flatten_append, ih, Nat.succ_mul, List.take_add]
      simp

/-- **A response is the bodies of its packets**, which all have its id and at most `maxBody`
bytes of it. -/
theorem responsePackets_spec (id : Int32) (body : Bytes) :
    ((responsePackets id body).map Packet.body).flatten = body ∧
      ∀ p ∈ responsePackets id body, p.id = id ∧ p.type = 0 ∧ p.body.length ≤ maxBody := by
  rw [responsePackets]
  split_ifs with hfits
  · simpa using hfits
  · constructor
    · have hmap : (bodyParts body).map (Packet.body ∘ Packet.mk id 0) = bodyParts body :=
        List.map_id _
      rw [List.map_map, hmap, bodyParts, flatten_parts, List.take_of_length_le]
      rw [maxBody]
      omega
    · intro p hp
      obtain ⟨part, hpart, rfl⟩ := List.mem_map.mp hp
      obtain ⟨i, -, rfl⟩ := List.mem_map.mp hpart
      exact ⟨rfl, rfl, List.length_take_le _ _⟩

/-- No packet of a response has a byte that the response does not have. -/
theorem mem_of_mem_responsePackets {id : Int32} {body : Bytes} {p : Packet}
    (h : p ∈ responsePackets id body) {c : UInt8} (hc : c ∈ p.body) : c ∈ body := by
  rw [← (responsePackets_spec id body).1]
  exact List.mem_flatten.mpr ⟨p.body, List.mem_map_of_mem h, hc⟩

/-- The packets of a response without a zero byte are carried by the framing. -/
theorem framed_of_mem_responsePackets {id : Int32} {body : Bytes} (hbody : 0 ∉ body) {p : Packet}
    (h : p ∈ responsePackets id body) : p.Framed := by
  have hlen := ((responsePackets_spec id body).2 p h).2.2
  rw [maxBody] at hlen
  exact ⟨fun h0 => hbody (mem_of_mem_responsePackets h h0), by omega⟩

/-- **The framing is lossless**: packets without zero bytes come back as they were written, and
so does a response, in parts of at most `maxBody` bytes; and a packet that is read off any
stream takes its size and four bytes from it. -/
theorem framing_lossless :
    (∀ ps : List Packet, (∀ p ∈ ps, p.Framed) → ∀ (net : Net UInt8) (y : Bytes),
      arrived net = ps.flatMap sendPacket ++ y →
        ∃ rest, readPackets ps.length net = some (ps, rest) ∧ arrived rest = y) ∧
    (∀ (id : Int32) (body : Bytes), 0 ∉ body → ∀ net : Net UInt8,
      arrived net = sendResponseBody id body →
        ∃ ps rest, readPackets ps.length net = some (ps, rest) ∧ arrived rest = [] ∧
          (ps.map Packet.body).flatten = body ∧
          ∀ p ∈ ps, p.id = id ∧ p.type = 0 ∧ p.body.length ≤ maxBody) ∧
    ∀ net : Net UInt8, (readPacket net).1 = none ∨
      ∃ head payload, arrived net = head ++ payload ++ arrived (readPacket net).2 ∧
        head.length = 4 ∧ (payload.length : ℤ) = (int32Of head).toInt ∧
        10 ≤ payload.length ∧ payload.length ≤ 8192 := by
  refine ⟨fun ps hps net y => readPackets_sendPackets hps, fun id body hbody net h => ?_,
    fun net => ?_⟩
  · obtain ⟨hflatten, hparts⟩ := responsePackets_spec id body
    obtain ⟨rest, hread, hrest⟩ := readPackets_sendPackets
      (fun p hp => framed_of_mem_responsePackets hbody hp) (y := [])
      (by simpa [sendResponseBody] using h)
    exact ⟨responsePackets id body, rest, hread, hrest, hflatten, hparts⟩
  · cases hread : readPacket net with
    | mk p? rest =>
        cases p? with
        | none => exact .inl rfl
        | some p =>
            obtain ⟨head, payload, harrived, hhead, hsize, hlo, hhi, -⟩ :=
              readPacket_consumes hread
            exact .inr ⟨head, payload, harrived, hhead, hsize, hlo, hhi⟩

/-- Two packets that arrive cut inside the first size and inside a body. -/
theorem framing_lossless_two :
    ∃ rest, readPackets 2 [[12, 0], [0, 0, 7, 0, 0, 0, 2, 0, 0, 0, 104],
      [105, 0, 0, 10, 0, 0, 0, 7, 0, 0, 0, 2, 0, 0, 0, 0, 0]] =
        some ([{ id := 7, type := 2, body := [104, 105] }, { id := 7, type := 2, body := [] }],
          rest) ∧ arrived rest = [] :=
  framing_lossless.1
    [{ id := 7, type := 2, body := [104, 105] }, { id := 7, type := 2, body := [] }]
    (by decide) _ [] (by decide)

end RSDWServerAPI.Rcon
