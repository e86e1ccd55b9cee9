import SelectiveRepeat.Queue
import SelectiveRepeat.Library.Circle
import SelectiveRepeat.Library.Reassembly

/-! `add_specific_queue` is ordered insertion by absolute number, as long as the raw
comparison of seqnums orders the numbers involved correctly. -/

namespace SelectiveRepeat

open Circle Reassembly

def Numbered (entries : List (Nat × Pkt)) : Prop :=
  ∀ entry ∈ entries, pktGetSeqnum entry.2 = entry.1 % 256

def Separated (number : Nat) (entries : List (Nat × Pkt)) : Prop :=
  ∀ entry ∈ entries, (entry.1 < number → Comparable 256 31 entry.1 number) ∧
    (number < entry.1 → Comparable 256 31 number entry.1)

theorem queueCmp_eq_before (pktRunner packet : Pkt) :
    queueCmp pktRunner packet = before 31 (pktGetSeqnum pktRunner) (pktGetSeqnum packet) := rfl

theorem queueCmp_iff {runnerNumber number : Nat} {pktRunner packet : Pkt}
    (runnerSeqnum : pktGetSeqnum pktRunner = runnerNumber % 256)
    (seqnum : pktGetSeqnum packet = number % 256)
    (earlier : runnerNumber < number → Comparable 256 31 runnerNumber number)
    (later : number < runnerNumber → Comparable 256 31 number runnerNumber) :
    (queueCmp pktRunner packet = true ↔ runnerNumber < number) ∧
      (pktGetSeqnum pktRunner = pktGetSeqnum packet ↔ runnerNumber = number) := by
  rw [queueCmp_eq_before, runnerSeqnum, seqnum]
  rcases Nat.lt_trichotomy runnerNumber number with lt | rfl | gt
  · have compared := (before_of_lt (by omega) lt (earlier lt)).1
    have close := earlier lt
    simp only [Comparable] at close
    refine ⟨iff_of_true compared lt, iff_of_false ?_ (Nat.ne_of_lt lt)⟩
    omega
  · refine ⟨iff_of_false ?_ (Nat.lt_irrefl _), iff_of_true rfl rfl⟩
    rw [before_self]
    exact Bool.false_ne_true
  · have compared := (before_of_lt (by omega) gt (later gt)).2
    have close := later gt
    simp only [Comparable] at close
    refine ⟨iff_of_false ?_ (Nat.lt_asymm gt), iff_of_false ?_ (Nat.ne_of_gt gt)⟩
    · rw [compared]
      exact Bool.false_ne_true
    · omega

theorem addSpecificFrom_insertAt {number : Nat} {packet : Pkt}
    (seqnum : pktGetSeqnum packet = number % 256) {entries : List (Nat × Pkt)}
    (numbered : Numbered entries) (separated : Separated number entries) (pktRunner : Pkt)
    (examined : entries = [] → pktGetSeqnum pktRunner ≠ pktGetSeqnum packet) :
    addSpecificFrom packet (entries.map Prod.snd) pktRunner =
      (insertAt number packet entries).map Prod.snd := by
  induction entries generalizing pktRunner with
  | nil => simp [addSpecificFrom, insertAt, examined rfl]
  | cons entry rest ih =>
      obtain ⟨numberedEntry, numberedRest⟩ := List.forall_mem_cons.mp numbered
      obtain ⟨⟨earlier, later⟩, separatedRest⟩ := List.forall_mem_cons.mp separated
      obtain ⟨compared, same⟩ := queueCmp_iff numberedEntry seqnum earlier later
      rw [List.map_cons, addSpecificFrom, insertAt]
      by_cases lower : entry.1 < number
      · have differs : pktGetSeqnum entry.2 ≠ pktGetSeqnum packet := by
          rw [Ne, same]
          exact Nat.ne_of_lt lower
        rw [if_pos (compared.mpr lower), if_pos lower, List.map_cons,
          ih numberedRest separatedRest entry.2 fun _ => differs]
      · rw [if_neg (mt compared.mp lower), if_neg lower]
        by_cases present : entry.1 = number
        · rw [if_pos (same.mpr present), if_pos present, List.map_cons]
        · rw [if_neg (mt same.mp present), if_neg present, List.map_cons, List.map_cons]

theorem addSpecificQueue_insertAt {number : Nat} {packet : Pkt}
    (seqnum : pktGetSeqnum packet = number % 256) {entries : List (Nat × Pkt)}
    (numbered : Numbered entries) (separated : Separated number entries) :
    addSpecificQueue (entries.map Prod.snd) packet =
      (insertAt number packet entries).map Prod.snd := by
  cases entries with
  | nil => rfl
  | cons entry rest =>
      exact addSpecificFrom_insertAt seqnum numbered separated entry.2 fun empty => by simp at empty

/-! Packets by their numbers. -/

/-- The absolute number of a packet that arrives when `written` payloads are written. -/
def absoluteNumber (written : Nat) (packet : Pkt) : Nat :=
  written + (((pktGetSeqnum packet : Int) - written) % 256).toNat

theorem pktGetSeqnum_lt (packet : Pkt) : pktGetSeqnum packet < 256 := packet.seqnum.isLt

theorem absoluteNumber_eq (written : Nat) (packet : Pkt) :
    absoluteNumber written packet = numberFrom 256 written (pktGetSeqnum packet) := by
  have bound := pktGetSeqnum_lt packet
  rw [absoluteNumber, numberFrom, distance]
  omega

theorem absoluteNumber_mod (written : Nat) (packet : Pkt) :
    absoluteNumber written packet % 256 = pktGetSeqnum packet := by
  rw [absoluteNumber_eq]
  exact numberFrom_mod (pktGetSeqnum_lt packet)

theorem absoluteNumber_bounds (written : Nat) (packet : Pkt) :
    written ≤ absoluteNumber written packet ∧ absoluteNumber written packet < written + 256 := by
  rw [absoluteNumber]
  omega

theorem absoluteNumber_of_le {written number : Nat} {packet : Pkt} (le : written ≤ number)
    (near : number < written + 256) (seqnum : pktGetSeqnum packet = number % 256) :
    absoluteNumber written packet = number := by
  rw [absoluteNumber_eq, seqnum]
  exact numberFrom_of_le le near

def numberedFrom (written : Nat) (pkts : List Pkt) : List (Nat × Pkt) :=
  pkts.map fun pkt => (absoluteNumber written pkt, pkt)

/-! Packets on an arc of the seqnum circle. -/

/-- The seqnums go up from `start` in the order of the list and stay within 31 of it. -/
structure OnArc (start : Nat) (packets : List Pkt) : Prop where
  increasing : packets.Pairwise fun first second =>
    distance 256 start (pktGetSeqnum first) < distance 256 start (pktGetSeqnum second)
  near : ∀ packet ∈ packets, distance 256 start (pktGetSeqnum packet) ≤ 31

section

variable {start : Nat} {packets : List Pkt} {packet : Pkt}

theorem numberedFrom_packets (start : Nat) (packets : List Pkt) :
    (numberedFrom start packets).map Prod.snd = packets :=
  (List.map_map ..).trans (List.map_id packets)

theorem mem_numberedFrom {entry : Nat × Pkt} (member : entry ∈ numberedFrom start packets) :
    entry.1 = absoluteNumber start entry.2 ∧ entry.2 ∈ packets := by
  obtain ⟨pkt, held, rfl⟩ := List.mem_map.mp member
  exact ⟨rfl, held⟩

theorem numberedFrom_numbered (start : Nat) (packets : List Pkt) :
    Numbered (numberedFrom start packets) := by
  intro entry member
  rw [(mem_numberedFrom member).1, absoluteNumber_mod]

theorem absoluteNumber_lt_iff (start : Nat) (first second : Pkt) :
    absoluteNumber start first < absoluteNumber start second ↔
      distance 256 start (pktGetSeqnum first) < distance 256 start (pktGetSeqnum second) := by
  rw [absoluteNumber_eq, absoluteNumber_eq, numberFrom, numberFrom, Nat.add_lt_add_iff_left]

theorem OnArc.separated (onArc : OnArc start packets)
    (near : distance 256 start (pktGetSeqnum packet) ≤ 31) :
    Separated (absoluteNumber start packet) (numberedFrom start packets) := by
  intro entry member
  obtain ⟨same, held⟩ := mem_numberedFrom member
  have entryNear := onArc.near entry.2 held
  simp only [Comparable, same, absoluteNumber_eq, numberFrom]
  omega

theorem OnArc.sorted (onArc : OnArc start packets) : Sorted (numberedFrom start packets) :=
  List.pairwise_map.mpr (onArc.increasing.imp (absoluteNumber_lt_iff start _ _).mpr)

theorem onArc_of_sorted {entries : List (Nat × Pkt)} (sorted : Sorted entries)
    (numbers : ∀ entry ∈ entries, entry.1 = absoluteNumber start entry.2 ∧
      distance 256 start (pktGetSeqnum entry.2) ≤ 31) :
    OnArc start (entries.map Prod.snd) := by
  constructor
  · refine List.pairwise_map.mpr (sorted.imp_of_mem ?_)
    intro first second firstMember secondMember less
    rw [(numbers first firstMember).1, (numbers second secondMember).1] at less
    exact (absoluteNumber_lt_iff start first.2 second.2).mp less
  · exact List.forall_mem_map.mpr fun entry member => (numbers entry member).2

theorem addSpecificQueue_onArc (onArc : OnArc start packets)
    (near : distance 256 start (pktGetSeqnum packet) ≤ 31) :
    OnArc start (addSpecificQueue packets packet) := by
  have seqnum := (absoluteNumber_mod start packet).symm
  have inserted := addSpecificQueue_insertAt seqnum (numberedFrom_numbered start packets)
    (onArc.separated near)
  rw [numberedFrom_packets] at inserted
  rw [inserted]
  refine onArc_of_sorted (insertAt_sorted _ packet onArc.sorted) ?_
  intro entry member
  rcases insertAt_number_mem _ _ _ entry member with rfl | old
  · exact ⟨rfl, near⟩
  · obtain ⟨same, held⟩ := mem_numberedFrom old
    exact ⟨same, onArc.near entry.2 held⟩

end

end SelectiveRepeat
