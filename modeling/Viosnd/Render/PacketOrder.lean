import Viosnd.Render.Effects

/-!
# Packets in order

In packet mode the OS announces consecutive packets and the worker submits what is announced. The
packets that successful submissions take are an initial part of the packets announced, each once
and in order.
-/

namespace Viosnd.Render

open StepRun EffectSystem

def Event.wrotePacket : Event → Option ULONG
  | .wrote packet => some packet
  | _ => none

/-- The packets `SetWritePacket` accepted, in order. -/
def writtenPackets (history : List Event) : List ULONG :=
  (history.filterMap Event.wrotePacket).reverse

/-- The packets successful submissions consumed after the first one was written, in order. -/
def consumedPackets : List Event → List ULONG
  | [] => []
  | .consumed packets :: older =>
      if writtenPackets older = [] then [] else consumedPackets older ++ packets
  | _ :: older => consumedPackets older

/-! ## Packet arithmetic -/

theorem packetsFrom_getLast? (f : ULONG) (m : Nat) (hm : 0 < m) :
    (packetsFrom f m).getLast? = some (f + BitVec.ofNat 32 (m - 1)) := by
  obtain ⟨m, rfl⟩ : ∃ m', m = m' + 1 := ⟨m - 1, by omega⟩
  rw [packetsFrom_succ, List.getLast?_concat]
  rfl

theorem packet_toNat (f : ULONG) (i : Nat) (hi : f.toNat + i < 2 ^ 32) :
    (f + BitVec.ofNat 32 i).toNat = f.toNat + i := by
  rw [BitVec.toNat_add, BitVec.toNat_ofNat, Nat.add_mod_mod, Nat.mod_eq_of_lt hi]

theorem mem_packetsFrom (f p : ULONG) (n : Nat) :
    p ∈ packetsFrom f n ↔ ∃ i < n, p = f + BitVec.ofNat 32 i := by
  unfold packetsFrom
  simp only [List.mem_map, List.mem_range]
  constructor
  · rintro ⟨i, hi, rfl⟩
    exact ⟨i, hi, rfl⟩
  · rintro ⟨i, hi, rfl⟩
    exact ⟨i, hi, rfl⟩

theorem packetsFrom_nodup (f : ULONG) (n : Nat) (hn : f.toNat + n ≤ 2 ^ 32) :
    (packetsFrom f n).Nodup := by
  unfold packetsFrom
  refine List.Nodup.map_on ?_ List.nodup_range
  intro i hi j hj hij
  rw [List.mem_range] at hi hj
  have hi' := packet_toNat f i (by omega)
  have hj' := packet_toNat f j (by omega)
  rw [hij] at hi'
  omega

private theorem not_lessOrEqual_succ (p : ULONG) :
    viosndPacketNumberLessOrEqual (p + 1) p = false := by
  have hone : p + 1 - p = 1 := by
    rw [BitVec.add_comm, BitVec.add_sub_cancel]
  unfold viosndPacketNumberLessOrEqual
  rw [hone]
  decide

/-! ## The histories -/

private theorem writtenPackets_append (noted history : List Event)
    (hnoted : ∀ e ∈ noted, e.wrotePacket = none) :
    writtenPackets (noted ++ history) = writtenPackets history := by
  unfold writtenPackets
  rw [List.filterMap_append, List.filterMap_eq_nil_iff.mpr hnoted, List.nil_append]

theorem writtenPackets_wrote (p : ULONG) (history : List Event) :
    writtenPackets (.wrote p :: history) = writtenPackets history ++ [p] := by
  change (p :: history.filterMap Event.wrotePacket).reverse = _
  rw [List.reverse_cons]
  rfl

private theorem consumedPackets_append (noted history : List Event)
    (hnoted : ∀ e ∈ noted, ∀ packets, e ≠ .consumed packets) :
    consumedPackets (noted ++ history) = consumedPackets history := by
  induction noted with
  | nil => rfl
  | cons e noted ih =>
      have hrest := ih fun e' he' => hnoted e' (List.mem_cons_of_mem e he')
      have hhead := hnoted e List.mem_cons_self
      cases e with
      | consumed packets => exact absurd rfl (hhead packets)
      | _ => exact hrest

theorem consumedPackets_unwritten (history : List Event) (h : writtenPackets history = []) :
    consumedPackets history = [] := by
  induction history with
  | nil => rfl
  | cons e history ih =>
      cases e with
      | wrote p =>
          rw [writtenPackets_wrote] at h
          exact absurd h (by simp)
      | consumed packets =>
          have hold : writtenPackets history = [] := h
          exact if_pos hold
      | _ => exact ih h

/-! ## The order -/

/-- Packets `f` to `f + m - 1` are written and `f` to `f + n - 1` consumed. -/
structure InOrder (w : World) (f : ULONG) (n m : Nat) : Prop where
  written : writtenPackets w.history = packetsFrom f m
  pos : 0 < m
  last : w.lastOsWritePacket = f + BitVec.ofNat 32 (m - 1)
  next : w.nextSubmitPacket = f + BitVec.ofNat 32 n
  behind : n ≤ m
  room : f.toNat + m < 2 ^ 32
  consumed : consumedPackets w.history = packetsFrom f n

def Ordered (w : World) : Prop :=
  (writtenPackets w.history = [] ∧ w.lastOsWritePacket = maxULONG) ∨ ∃ f n m, InOrder w f n m

section

variable {w w' : World} {f : ULONG} {n m : Nat}

theorem InOrder.last_toNat (h : InOrder w f n m) :
    w.lastOsWritePacket.toNat = f.toNat + m - 1 := by
  have hpos := h.pos
  have hroom := h.room
  rw [h.last, packet_toNat f (m - 1) (by omega)]
  omega

theorem InOrder.last_ne (h : InOrder w f n m) : w.lastOsWritePacket ≠ maxULONG := by
  intro hlast
  have hnat := h.last_toNat
  have hroom := h.room
  have hmax : maxULONG.toNat = 2 ^ 32 - 1 := rfl
  rw [hlast, hmax] at hnat
  omega

/-- A run of packets that are all writable stops at the last one written. -/
theorem InOrder.packets_behind (h : InOrder w f n m) (k : Nat)
    (hwritten : ∀ p ∈ packetsFrom w.nextSubmitPacket k,
      viosndPacketNumberLessOrEqual p w.lastOsWritePacket = true) : n + k ≤ m := by
  by_contra hbeyond
  have hpos := h.pos
  have hbehind := h.behind
  have hmem : f + BitVec.ofNat 32 m ∈ packetsFrom w.nextSubmitPacket k := by
    refine (mem_packetsFrom _ _ _).mpr ⟨m - n, by omega, ?_⟩
    rw [h.next, BitVec.add_assoc, ← BitVec.ofNat_add, Nat.add_sub_cancel' hbehind]
  have hnext : f + BitVec.ofNat 32 m = w.lastOsWritePacket + 1 := by
    have hone : BitVec.ofNat 32 (m - 1) + 1 = BitVec.ofNat 32 m := by
      have hsucc := BitVec.ofNat_add (n := 32) (m - 1) 1
      rw [Nat.sub_add_cancel hpos] at hsucc
      exact hsucc.symm
    rw [h.last, BitVec.add_assoc, hone]
  have hle := hwritten _ hmem
  rw [hnext, not_lessOrEqual_succ] at hle
  cases hle

theorem InOrder.congr (h : InOrder w f n m) (hlast : w'.lastOsWritePacket = w.lastOsWritePacket)
    (hnext : w'.nextSubmitPacket = w.nextSubmitPacket)
    (hwritten : writtenPackets w'.history = writtenPackets w.history)
    (hconsumed : consumedPackets w'.history = consumedPackets w.history) : InOrder w' f n m :=
  ⟨by rw [hwritten]; exact h.written, h.pos, by rw [hlast]; exact h.last,
    by rw [hnext]; exact h.next, h.behind, h.room, by rw [hconsumed]; exact h.consumed⟩

theorem Effect.writtenPackets_eq {k : Kind} (hR : Effect k w w') (hk : k ≠ .write) :
    writtenPackets w'.history = writtenPackets w.history := by
  obtain ⟨noted, hhistory, hnoted⟩ := hR.history_extends
  rw [hhistory]
  refine writtenPackets_append noted w.history fun e he => ?_
  have hmem := hnoted e he
  cases e with
  | wrote p => exact absurd (Finset.mem_singleton.mp hmem) hk
  | _ => rfl

theorem Effect.consumedPackets_eq {k : Kind} (hR : Effect k w w') (hk : k ≠ .packet) :
    consumedPackets w'.history = consumedPackets w.history := by
  obtain ⟨noted, hhistory, hnoted⟩ := hR.history_extends
  rw [hhistory]
  refine consumedPackets_append noted w.history fun e he packets heq => ?_
  have hmem := hnoted e he
  rw [heq] at hmem
  exact hk (Finset.mem_singleton.mp hmem)

/-- No change but a stop takes a packet out of order. -/
theorem Effect.ordered {k : Kind} (hR : Effect k w w') (hk : k ≠ .write ∧ k ≠ .reset)
    (h : Ordered w) : Ordered w' := by
  have hwritten := hR.writtenPackets_eq hk.1
  have hlast := hR.lastOsWritePacket_eq hk.1 hk.2
  rcases h with ⟨hnone, hmax⟩ | ⟨f, n, m, h⟩
  · exact Or.inl ⟨hwritten.trans hnone, hlast.trans hmax⟩
  · refine Or.inr ?_
    by_cases hpacket : k = .packet
    · subst hpacket
      cases hR with
      | packet entry count _ _ _ _ hall =>
          have hbehind := h.packets_behind count (hall h.last_ne)
          have hne : writtenPackets (.submitted entry :: w.history) ≠ [] := by
            have hold := h.written
            intro hnil
            have hlength := congrArg List.length (hold.symm.trans hnil)
            rw [packetsFrom_length] at hlength
            have hpos := h.pos
            simp only [List.length_nil] at hlength
            omega
          refine ⟨f, n + count, m, hwritten.trans h.written, h.pos, hlast.trans h.last, ?_,
            hbehind, h.room, ?_⟩
          · change w.nextSubmitPacket + BitVec.ofNat 32 count = _
            rw [h.next, BitVec.add_assoc, ← BitVec.ofNat_add]
          · change (if writtenPackets (.submitted entry :: w.history) = [] then []
              else consumedPackets (.submitted entry :: w.history) ++
                packetsFrom w.nextSubmitPacket count) = _
            rw [if_neg hne, ← packetsFrom_append, ← h.next, ← h.consumed]
            rfl
    · have hsilence : k ≠ .silence := by
        rintro rfl
        cases hR with
        | silence _ _ _ _ _ hcyclic => exact h.last_ne hcyclic
      exact ⟨f, n, m, h.congr hlast (hR.nextSubmitPacket_eq hk.1 hk.2 hsilence hpacket) hwritten
        (hR.consumedPackets_eq hpacket)⟩

end

theorem Does.ordered {K : Finset Kind} {w w' : World} (h : Does K w w')
    (hK : .write ∉ K ∧ .reset ∉ K) (hw : Ordered w) : Ordered w' :=
  h.invariant (fun _ hk _ _ hR => hR.ordered ⟨fun he => hK.1 (he ▸ hk), fun he =>
    hK.2 (he ▸ hk)⟩) hw

end Viosnd.Render
