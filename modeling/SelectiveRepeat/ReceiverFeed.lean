import SelectiveRepeat.ReceiverRuns

/-! Sequences of datagrams fed to `read_to_list_r`, whatever it returns. Every state of
a running receiver is reached by such a sequence. -/

namespace SelectiveRepeat

open Bytes Circle Reassembly

/-- What `recv` delivers, and what its buffer held before. -/
abbrev Arrival := Option Datagram × Memory

def receive (sys : Sys) (r : Receiver) (arrival : Arrival) : Receiver :=
  (readToListR sys r arrival.1 arrival.2).2

def fed (sys : Sys) (arrivals : List Arrival) : Receiver :=
  arrivals.foldl (receive sys) Receiver.init

def Brings (sys : Sys) (arrival : Arrival) (pkt : Pkt) : Prop :=
  ∃ datagram, arrival.1 = some datagram ∧ Decodes sys datagram arrival.2 pkt

def intact (sys : Sys) (pkt : Pkt) : Arrival := (some (packetBytes sys.crc32 pkt), fun _ => 0)

theorem brings_intact (sys : Sys) {pkt : Pkt} (valid : pkt.Valid) :
    Brings sys (intact sys pkt) (decodedPkt sys.crc32 pkt) :=
  ⟨_, rfl, decodes_packetBytes sys valid _⟩

structure Receiver.Accepts (r : Receiver) (pkt : Pkt) : Prop where
  data : pktGetType pkt = ptypeData
  whole : pktGetTr pkt ≠ 1
  inWindow : r.checkInWindow (pktGetSeqnum pkt) = true

theorem fed_concat (sys : Sys) (before : List Arrival) (arrival : Arrival) :
    fed sys (before ++ [arrival]) = receive sys (fed sys before) arrival := by
  simp [fed]

section

variable {sys : Sys} {arrival : Arrival} {pkt : Pkt}

theorem Brings.valid (brings : Brings sys arrival pkt) : pkt.Valid := by
  obtain ⟨datagram, _, decodes⟩ := brings
  exact decodes.valid

theorem Brings.unique {other : Pkt} (brings : Brings sys arrival pkt)
    (again : Brings sys arrival other) : other = pkt := by
  obtain ⟨datagram, arrived, decodes⟩ := brings
  obtain ⟨other, arrivedAgain, decodesAgain⟩ := again
  obtain rfl := Option.some.inj (arrived.symm.trans arrivedAgain)
  exact decodes.unique decodesAgain

theorem Brings.read (brings : Brings sys arrival pkt) (r : Receiver) :
    readToListR sys r arrival.1 arrival.2 = readPacketR sys r pkt := by
  obtain ⟨datagram, arrived, decodes⟩ := brings
  rw [arrived]
  exact readToListR_decodes decodes r

theorem Brings.receive (brings : Brings sys arrival pkt) (r : Receiver) :
    receive sys r arrival = (readPacketR sys r pkt).2 := by
  rw [SelectiveRepeat.receive, brings.read]

theorem accepts_or_refuses (sys : Sys) (r : Receiver) (arrival : Arrival) :
    (∃ pkt, Brings sys arrival pkt ∧ r.Accepts pkt) ∨
      ∀ pkt, Brings sys arrival pkt → ¬r.Accepts pkt := by
  rw [or_iff_not_imp_left]
  exact fun none pkt brings accepts => none ⟨pkt, brings, accepts⟩

theorem receive_nothing (nothing : ∀ pkt, ¬Brings sys arrival pkt) (r : Receiver) :
    receive sys r arrival = r := by
  obtain ⟨arrived, stale⟩ := arrival
  cases arrived with
  | none => rfl
  | some datagram =>
      have rejected : ∀ pkt, ¬Decodes sys datagram stale pkt :=
        fun pkt decodes => nothing pkt ⟨datagram, rfl, decodes⟩
      rw [receive, readToListR_rejected rejected]

end

theorem receive_tracks (sys : Sys) {r : Receiver} {out : List Pkt} {entries : List (Nat × Pkt)}
    (tracks : Tracks r out entries) (arrival : Arrival) :
    ∃ out' rest, Tracks (receive sys r arrival) out' rest := by
  by_cases brought : ∃ pkt, Brings sys arrival pkt
  · obtain ⟨pkt, brings⟩ := brought
    rw [brings.receive]
    exact (readPacketR_outcome sys tracks brings.valid).tracks tracks
  · rw [receive_nothing (not_exists.mp brought)]
    exact ⟨out, entries, tracks⟩

theorem fed_tracks (sys : Sys) (arrivals : List Arrival) :
    ∃ out entries, Tracks (fed sys arrivals) out entries := by
  induction arrivals using List.reverseRecOn with
  | nil => exact ⟨[], [], init_tracks⟩
  | append_singleton before arrival ih =>
      obtain ⟨out, entries, tracks⟩ := ih
      rw [fed_concat]
      exact receive_tracks sys tracks arrival

end SelectiveRepeat
