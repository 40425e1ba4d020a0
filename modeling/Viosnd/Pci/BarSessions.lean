import Viosnd.Pci.BarWindows
import Viosnd.Pci.Windows

/-!
# Sessions with the BARs

A window of a device is mapped at most once, at the first call that asks for it, and unmapped at the
end. The tables of both drivers serve the windows of the device that the resources are those of.
-/

namespace Viosnd.Pci.Bars

open Machine

/-! ## Windows that are mapped on demand -/

/-- Where the windows of a device are mapped, and the mappings that were made. -/
structure Mappings where
  base : ℕ → Option ℕ+
  io : IoSpaces

def Window.basePA (w : Window) : ℕ+ := ⟨w.region.start.toNat,
  Nat.pos_of_ne_zero fun h => w.used (BitVec.eq_of_toNat_eq h)⟩

/-- A call for an address in a window. An eager driver maps the window even when the offset lies
behind it. -/
def serve (eager : Bool) (windows : ℕ → Option Window) (s : Mappings) (call : MapCall) :
    Mappings × Option ℕ :=
  match windows call.bar with
  | none => (s, none)
  | some w =>
      let inside := decide (call.offset < w.length.toNat)
      if w.region.isPort then (s, if inside then some (addressAt call.offset w.basePA) else none)
      else
        let s' : Mappings :=
          if (eager || inside) && (s.base call.bar).isNone then
            ⟨Function.update s.base call.bar call.grant, s.io.map call.grant w.length⟩
          else s
        (s', if inside then (s'.base call.bar).map (addressAt call.offset) else none)

def deviceOf (bytes : ℕ → BitVec 8) (windows : ℕ → Option Window) (base : ℕ → Option ℕ+) :
    PciDevice where
  bytes := bytes
  bars bar := (windows bar).elim ⟨false, false, 1, 0, none⟩ fun w =>
    ⟨true, w.region.isPort, w.basePA, w.length, base bar⟩

def listed (windows : ℕ → Option Window) : List (ℕ × Window) :=
  (List.range pciType0Addresses).filterMap fun bar => (windows bar).map fun w => (bar, w)

def spaceOf (base : ℕ → Option ℕ+) (place : ℕ × Window) : Option (ℕ+ × BitVec 32) :=
  if place.2.region.isPort then none else (base place.1).map fun va => (va, place.2.length)

/-- The call asks for an address inside its window, if there is one. -/
def InWindow (windows : ℕ → Option Window) (call : MapCall) : Prop :=
  ∀ w, windows call.bar = some w → call.offset < w.length.toNat

/-- The answers of a session with a device, from one state of the system to another. -/
structure Serves (windows : ℕ → Option Window) (calls : List MapCall) (answers : Answers)
    (io io' : IoSpaces) : Prop where
  /-- Each window has one place for the whole session. -/
  served : ∃ base : ℕ → Option ℕ+,
    (∀ call addr, (call, some addr) ∈ calls.zip answers.addresses → ∀ bytes,
      viosndMapAddressRange (deviceOf bytes windows base) call.bar call.offset = some addr) ∧
    (∀ bytes, answers.lengths = (List.range pciType0Addresses).map
      (viosndGetResourceLength (deviceOf bytes windows base))) ∧
    io'.mapped.Perm ((listed windows).filterMap (spaceOf base) ++ io.mapped) ∧
    io'.unmapped.Perm ((listed windows).filterMap (spaceOf base) ++ io.unmapped)
  /-- Nothing is refused that the system grants. -/
  granted : ∀ call answer, (call, answer) ∈ calls.zip answers.addresses →
    call.grant.isSome = true → (windows call.bar).isSome = true → InWindow windows call →
    answer.isSome = true

section

variable {eager : Bool} {windows : ℕ → Option Window} {s : Mappings} {call : MapCall}

private theorem serve_none (h : windows call.bar = none) :
    serve eager windows s call = (s, none) := by
  simp [serve, h]

private theorem serve_port {w : Window} (h : windows call.bar = some w)
    (hport : w.region.isPort = true) :
    serve eager windows s call =
      (s, if call.offset < w.length.toNat then some (addressAt call.offset w.basePA)
        else none) := by
  simp [serve, h, hport]

private theorem serve_mapped {w : Window} {va : ℕ+} (h : windows call.bar = some w)
    (hmemory : w.region.isPort = false) (hbase : s.base call.bar = some va) :
    serve eager windows s call =
      (s, if call.offset < w.length.toNat then some (addressAt call.offset va) else none) := by
  simp [serve, h, hmemory, hbase]

private theorem serve_unmapped {w : Window} (h : windows call.bar = some w)
    (hmemory : w.region.isPort = false) (hbase : s.base call.bar = none)
    (hasks : eager = true ∨ call.offset < w.length.toNat) :
    serve eager windows s call =
      (⟨Function.update s.base call.bar call.grant, s.io.map call.grant w.length⟩,
        if call.offset < w.length.toNat then call.grant.map (addressAt call.offset)
        else none) := by
  have hmaps : (eager || decide (call.offset < w.length.toNat)) = true := by simpa using hasks
  simp [serve, h, hmemory, hbase, hmaps]

private theorem serve_outside {w : Window} (h : windows call.bar = some w)
    (hmemory : w.region.isPort = false) (hlong : w.length.toNat ≤ call.offset) :
    serve false windows s call = (s, none) := by
  simp [serve, h, hmemory, Nat.not_lt.mpr hlong]

private theorem serve_state (eager : Bool) (windows : ℕ → Option Window) (s : Mappings)
    (call : MapCall) :
    (serve eager windows s call).1 = s ∨
      ∃ w, windows call.bar = some w ∧ w.region.isPort = false ∧ s.base call.bar = none ∧
        (serve eager windows s call).1 =
          ⟨Function.update s.base call.bar call.grant, s.io.map call.grant w.length⟩ := by
  cases hwindow : windows call.bar with
  | none => exact Or.inl (by rw [serve_none hwindow])
  | some w =>
      cases hport : w.region.isPort with
      | true => exact Or.inl (by rw [serve_port hwindow hport])
      | false =>
          cases hbase : s.base call.bar with
          | some va => exact Or.inl (by rw [serve_mapped hwindow hport hbase])
          | none =>
              by_cases hasks : eager = true ∨ call.offset < w.length.toNat
              · exact Or.inr ⟨w, rfl, hport, rfl, by rw [serve_unmapped hwindow hport hbase hasks]⟩
              · obtain ⟨heager, hlong⟩ := not_or.mp hasks
                rw [Bool.not_eq_true] at heager
                subst heager
                exact Or.inl (by rw [serve_outside hwindow hport (Nat.not_lt.mp hlong)])

private theorem serve_answer {w : Window} (h : windows call.bar = some w) :
    (serve eager windows s call).2 =
      if call.offset < w.length.toNat then
        (if w.region.isPort then some w.basePA
          else (serve eager windows s call).1.base call.bar).map (addressAt call.offset)
      else none := by
  cases hport : w.region.isPort with
  | true => simp [serve, h, hport]
  | false => simp [serve, h, hport]

def Extends (base base' : ℕ → Option ℕ+) : Prop :=
  ∀ bar va, base bar = some va → base' bar = some va

theorem Extends.trans {base base' base'' : ℕ → Option ℕ+} (h : Extends base base')
    (h' : Extends base' base'') : Extends base base'' :=
  fun bar va hva => h' bar va (h bar va hva)

private theorem serve_extends (eager : Bool) (windows : ℕ → Option Window) (s : Mappings)
    (call : MapCall) : Extends s.base (serve eager windows s call).1.base := by
  intro bar va hva
  rcases serve_state eager windows s call with hsame | ⟨w, -, -, hbase, hmapped⟩
  · rwa [hsame]
  · have hne : bar ≠ call.bar := by
      intro hbar
      rw [hbar, hbase] at hva
      cases hva
    rw [hmapped]
    dsimp only
    rwa [Function.update_of_ne hne]

private theorem respond_extends (eager : Bool) (windows : ℕ → Option Window) (s : Mappings)
    (calls : List MapCall) :
    Extends s.base (respond (serve eager windows) s calls).1.base := by
  apply respond_invariant (P := fun s' : Mappings => Extends s.base s'.base)
  · intro s' call h
    exact h.trans (serve_extends eager windows s' call)
  · exact fun _ _ h => h

end

/-! ### What was mapped -/

section

variable {windows : ℕ → Option Window} {base : ℕ → Option ℕ+} {places : List (ℕ × Window)}

structure Lists (windows : ℕ → Option Window) (places : List (ℕ × Window)) : Prop where
  nodup : (places.map Prod.fst).Nodup
  mem : ∀ bar w, (bar, w) ∈ places ↔ windows bar = some w

private theorem listed_lists
    (hbars : ∀ bar, (windows bar).isSome = true → bar < pciType0Addresses) :
    Lists windows (listed windows) := by
  constructor
  · rw [listed, List.map_filterMap]
    apply List.nodup_range.filterMap
    intro bar bar' i hi hi'
    simp only [Option.map_map, Option.mem_def, Option.map_eq_some_iff, Function.comp] at hi hi'
    obtain ⟨-, -, rfl⟩ := hi
    obtain ⟨-, -, hsame⟩ := hi'
    exact hsame.symm
  · intro bar w
    simp only [listed, List.mem_filterMap, List.mem_range, Option.map_eq_some_iff, Prod.mk.injEq]
    constructor
    · rintro ⟨bar', -, w', hwindow, rfl, rfl⟩
      exact hwindow
    · intro hwindow
      exact ⟨bar, hbars bar (by simp [hwindow]), w, hwindow, rfl, rfl⟩

private theorem Lists.perm {places' : List (ℕ × Window)} (h : Lists windows places)
    (h' : Lists windows places') : places.Perm places' := by
  apply (List.perm_ext_iff_of_nodup h.nodup.of_map h'.nodup.of_map).mpr
  rintro ⟨bar, w⟩
  rw [h.mem, h'.mem]

private theorem Lists.spaces_update (h : Lists windows places) {bar : ℕ} {w : Window}
    (hwindow : windows bar = some w) (hmemory : w.region.isPort = false) (hbase : base bar = none)
    (grant : Option ℕ+) :
    (places.filterMap (spaceOf (Function.update base bar grant))).Perm
      ((grant.map fun va => (va, w.length)).toList ++ places.filterMap (spaceOf base)) := by
  obtain ⟨before, behind, rfl⟩ := List.append_of_mem ((h.mem bar w).mpr hwindow)
  have hnodup := h.nodup
  rw [List.map_append, List.map_cons] at hnodup
  have hapart := List.nodup_middle.mp hnodup
  have hothers : ∀ place ∈ before ++ behind,
      spaceOf (Function.update base bar grant) place = spaceOf base place := by
    intro place hplace
    have hne : place.1 ≠ bar := by
      intro hsame
      apply (List.nodup_cons.mp hapart).1
      rw [← List.map_append, List.mem_map]
      exact ⟨place, hplace, hsame⟩
    simp [spaceOf, hne]
  have hbefore := List.filterMap_congr fun place hplace =>
    hothers place (List.mem_append_left behind hplace)
  have hbehind := List.filterMap_congr fun place hplace =>
    hothers place (List.mem_append_right before hplace)
  have hthis : spaceOf (Function.update base bar grant) (bar, w) =
      grant.map fun va => (va, w.length) := by simp [spaceOf, hmemory]
  have hbefore' : spaceOf base (bar, w) = none := by simp [spaceOf, hbase]
  cases grant with
  | none => simp [hbefore, hbehind, hthis, hbefore']
  | some va =>
      simp only [List.filterMap_append, List.filterMap_cons, hbefore, hbehind, hthis, hbefore',
        Option.map_some, Option.toList_some]
      exact List.perm_middle

structure Accounts (windows : ℕ → Option Window) (places : List (ℕ × Window)) (io : IoSpaces)
    (s : Mappings) : Prop where
  mapped : s.io.mapped.Perm (places.filterMap (spaceOf s.base) ++ io.mapped)
  unmapped : s.io.unmapped = io.unmapped

private theorem Accounts.serve {io : IoSpaces} {s : Mappings} (h : Accounts windows places io s)
    (hplaces : Lists windows places) (eager : Bool) (call : MapCall) :
    Accounts windows places io (serve eager windows s call).1 := by
  rcases serve_state eager windows s call with hsame | ⟨w, hwindow, hmemory, hbase, hmapped⟩
  · rwa [hsame]
  · rw [hmapped]
    constructor
    · have hspaces := hplaces.spaces_update hwindow hmemory hbase call.grant
      dsimp only [IoSpaces.map]
      apply (h.mapped.append_left _).trans
      rw [← List.append_assoc]
      exact (hspaces.append_right io.mapped).symm
    · exact h.unmapped

end

/-! ### The answers -/

section

variable {eager : Bool} {windows : ℕ → Option Window} {base : ℕ → Option ℕ+}

private theorem mapAddressRange_deviceOf {w : Window} {bytes : ℕ → BitVec 8} {bar offset : ℕ}
    (hbar : bar < pciType0Addresses) (h : windows bar = some w)
    (hinside : offset < w.length.toNat) :
    viosndMapAddressRange (deviceOf bytes windows base) bar offset =
      (if w.region.isPort then some w.basePA else base bar).map (addressAt offset) := by
  have hdevice : (deviceOf bytes windows base).bars bar =
      ⟨true, w.region.isPort, w.basePA, w.length, base bar⟩ := by simp [deviceOf, h]
  rw [viosndMapAddressRange, hdevice, if_neg (by simp; omega), if_neg (by simp; omega)]
  rfl

private theorem resourceLength_deviceOf (bytes : ℕ → BitVec 8) {bar : ℕ}
    (hbar : bar < pciType0Addresses) :
    viosndGetResourceLength (deviceOf bytes windows base) bar =
      (windows bar).elim 0 fun w => w.length.toNat := by
  have hlt : ¬ pciType0Addresses ≤ bar := Nat.not_le.mpr hbar
  cases hwindow : windows bar <;> simp [viosndGetResourceLength, deviceOf, hwindow, hlt]

/-- An address that was given is in the window, wherever more windows are mapped. -/
private theorem serve_address (hbars : ∀ bar, (windows bar).isSome = true → bar < pciType0Addresses)
    {s : Mappings} {call : MapCall} {addr : ℕ} (h : (serve eager windows s call).2 = some addr)
    (hbase : Extends (serve eager windows s call).1.base base) (bytes : ℕ → BitVec 8) :
    viosndMapAddressRange (deviceOf bytes windows base) call.bar call.offset = some addr := by
  cases hwindow : windows call.bar with
  | none =>
      rw [serve_none hwindow] at h
      cases h
  | some w =>
      rw [serve_answer hwindow] at h
      split at h
      · next hinside =>
          rw [mapAddressRange_deviceOf (hbars _ (by simp [hwindow])) hwindow hinside]
          split at h
          · next hport => rwa [if_pos hport]
          · next hport =>
              obtain ⟨va, hva, haddr⟩ := Option.map_eq_some_iff.mp h
              rw [if_neg hport, hbase _ _ hva, Option.map_some, haddr]
      · cases h

private theorem respond_address (eager : Bool)
    (hbars : ∀ bar, (windows bar).isSome = true → bar < pciType0Addresses) (s : Mappings)
    (calls : List MapCall) {call : MapCall} {addr : ℕ}
    (h : (call, some addr) ∈ calls.zip (respond (serve eager windows) s calls).2)
    (bytes : ℕ → BitVec 8) :
    viosndMapAddressRange (deviceOf bytes windows (respond (serve eager windows) s calls).1.base)
      call.bar call.offset = some addr := by
  induction calls generalizing s with
  | nil => simp at h
  | cons first calls ih =>
      rw [respond_cons] at h ⊢
      cases List.mem_cons.mp h with
      | inl hfirst =>
          obtain ⟨rfl, hanswer⟩ := Prod.mk.inj hfirst
          exact serve_address hbars hanswer.symm (respond_extends eager windows _ calls) bytes
      | inr hrest => exact ih _ hrest

private theorem serve_granted {s : Mappings} {call : MapCall} (hgrant : call.grant.isSome = true)
    (hwindow : (windows call.bar).isSome = true) (hinside : InWindow windows call) :
    (serve eager windows s call).2.isSome = true := by
  obtain ⟨w, hw⟩ := Option.isSome_iff_exists.mp hwindow
  have hfits := hinside w hw
  cases hport : w.region.isPort with
  | true => simp [serve_port hw hport, hfits]
  | false =>
      cases hbase : s.base call.bar with
      | some va => simp [serve_mapped hw hport hbase, hfits]
      | none => simp [serve_unmapped hw hport hbase (Or.inr hfits), hfits, hgrant]

private theorem respond_granted (eager : Bool) (s : Mappings) (calls : List MapCall)
    {call : MapCall} {answer : Option ℕ}
    (h : (call, answer) ∈ calls.zip (respond (serve eager windows) s calls).2)
    (hgrant : call.grant.isSome = true) (hwindow : (windows call.bar).isSome = true)
    (hinside : InWindow windows call) : answer.isSome = true := by
  induction calls generalizing s with
  | nil => simp at h
  | cons first calls ih =>
      rw [respond_cons] at h
      cases List.mem_cons.mp h with
      | inl hfirst =>
          obtain ⟨rfl, rfl⟩ := Prod.mk.inj hfirst
          exact serve_granted hgrant hwindow hinside
      | inr hrest => exact ih _ hrest

/-- In its window a call is served the same whether the driver is eager or not. -/
private theorem serve_eager_eq {s : Mappings} {call : MapCall} (h : InWindow windows call) :
    serve true windows s call = serve false windows s call := by
  cases hwindow : windows call.bar with
  | none => rw [serve_none hwindow, serve_none hwindow]
  | some w => simp [serve, hwindow, h w hwindow]

end

/-- A session of a driver that serves the windows. -/
private theorem respond_serves
    (hbars : ∀ bar, (windows bar).isSome = true → bar < pciType0Addresses)
    {places : List (ℕ × Window)} (hplaces : Lists windows places) (eager : Bool) (io : IoSpaces)
    (calls : List MapCall) {lengths : List ℕ}
    (hlengths : ∀ bytes base, lengths = (List.range pciType0Addresses).map
      (viosndGetResourceLength (deviceOf bytes windows base))) :
    Serves windows calls ⟨(respond (serve eager windows) ⟨fun _ => none, io⟩ calls).2, lengths⟩ io
      ((respond (serve eager windows) ⟨fun _ => none, io⟩ calls).1.io.unmapAll (places.filterMap
        (spaceOf (respond (serve eager windows) ⟨fun _ => none, io⟩ calls).1.base))) := by
  have hstart : Accounts windows places io ⟨fun _ => none, io⟩ := by
    have hnothing : places.filterMap (spaceOf fun _ => none) = [] := by
      apply List.filterMap_eq_nil_iff.mpr
      intro place hplace
      simp [spaceOf]
    constructor
    · rw [hnothing]
      exact List.Perm.refl _
    · rfl
  obtain ⟨hmapped, hunmapped⟩ := respond_invariant (P := Accounts windows places io)
    (fun _ call hs => hs.serve hplaces eager call) calls hstart
  have hspaces := fun base => (hplaces.perm (listed_lists hbars)).filterMap (spaceOf base)
  constructor
  · refine ⟨_, fun call addr h bytes => respond_address eager hbars _ calls h bytes,
      fun bytes => hlengths bytes _, ?_, ?_⟩
    · exact hmapped.trans ((hspaces _).append_right io.mapped)
    · dsimp only [IoSpaces.unmapAll]
      rw [hunmapped]
      exact ((List.reverse_perm _).trans (hspaces _)).append_right io.unmapped
  · exact fun call answer h => respond_granted eager _ calls h

/-! ## The two drivers -/

section

variable {windows : ℕ → Option Window} {s : Mappings}

structure WaveTracks (windows : ℕ → Option Window) (d : WaveBars) (s : Mappings) : Prop where
  bars : ∀ bar < pciType0Addresses, d.bars bar =
    (windows bar).elim ⟨false, false, 0, 0, none⟩ fun w =>
      ⟨true, w.region.isPort, w.region.start, w.length, s.base bar⟩
  ports : ∀ bar w, windows bar = some w → w.region.isPort = true → s.base bar = none
  io : d.io = s.io

theorem WaveTracks.map {d : WaveBars} (h : WaveTracks windows d s) {bar : ℕ} {w : Window}
    (hwindow : windows bar = some w) (hmemory : w.region.isPort = false) (grant : Option ℕ+) :
    WaveTracks windows
      ⟨Function.update d.bars bar ⟨true, false, w.region.start, w.length, grant⟩,
        d.io.map grant w.length⟩
      ⟨Function.update s.base bar grant, s.io.map grant w.length⟩ := by
  constructor
  · intro bar' hbar'
    by_cases hsame : bar' = bar
    · simp [hsame, hwindow, hmemory]
    · simpa [hsame] using h.bars bar' hbar'
  · intro bar' w' hwindow' hport
    have hne : bar' ≠ bar := by
      intro hsame
      rw [hsame, hwindow] at hwindow'
      rw [← Option.some.inj hwindow', hmemory] at hport
      cases hport
    dsimp only
    rw [Function.update_of_ne hne]
    exact h.ports bar' w' hwindow' hport
  · simp only [h.io]

theorem WaveTracks.step (hbars : ∀ bar, (windows bar).isSome = true → bar < pciType0Addresses)
    {d : WaveBars} (h : WaveTracks windows d s) (call : MapCall) :
    (d.viosndMapAddressRange call).2 = (serve false windows s call).2 ∧
      WaveTracks windows (d.viosndMapAddressRange call).1 (serve false windows s call).1 := by
  cases hwindow : windows call.bar with
  | none =>
      have habsent : pciType0Addresses ≤ call.bar ∨ (d.bars call.bar).present = false := by
        by_cases hbar : call.bar < pciType0Addresses
        · right
          rw [h.bars call.bar hbar, hwindow, Option.elim_none]
        · exact Or.inl (Nat.not_lt.mp hbar)
      rw [serve_none hwindow, WaveBars.viosndMapAddressRange, if_pos habsent]
      exact ⟨rfl, h⟩
  | some w =>
      have hbar := hbars call.bar (by simp [hwindow])
      have hentry := h.bars call.bar hbar
      rw [hwindow, Option.elim_some] at hentry
      have hpresent : ¬ (pciType0Addresses ≤ call.bar ∨ true = false) := by simpa using hbar
      simp only [WaveBars.viosndMapAddressRange, hentry]
      rw [if_neg hpresent]
      cases hport : w.region.isPort with
      | true =>
          rw [serve_port hwindow hport]
          by_cases hinside : call.offset < w.length.toNat
          · rw [if_neg (Nat.not_le.mpr hinside), if_pos hinside]
            exact ⟨rfl, h⟩
          · rw [if_pos (Nat.not_lt.mp hinside), if_neg hinside]
            exact ⟨rfl, h⟩
      | false =>
          by_cases hinside : call.offset < w.length.toNat
          · rw [if_neg (Nat.not_le.mpr hinside)]
            cases hbase : s.base call.bar with
            | some va =>
                rw [serve_mapped hwindow hport hbase, if_pos hinside]
                exact ⟨rfl, h⟩
            | none =>
                rw [serve_unmapped hwindow hport hbase (Or.inr hinside), if_pos hinside]
                exact ⟨rfl, h.map hwindow hport call.grant⟩
          · have hlong := Nat.not_lt.mp hinside
            rw [if_pos hlong, serve_outside hwindow hport hlong]
            exact ⟨rfl, h⟩

theorem WaveTracks.space {d : WaveBars} (h : WaveTracks windows d s) :
    d.viosndDestroyDevice = s.io.unmapAll ((listed windows).filterMap (spaceOf s.base)) := by
  rw [WaveBars.viosndDestroyDevice, h.io, listed, List.filterMap_filterMap]
  congr 1
  apply List.filterMap_congr
  intro bar hbar
  rw [h.bars bar (List.mem_range.mp hbar)]
  cases hwindow : windows bar with
  | none => rfl
  | some w =>
      cases hport : w.region.isPort with
      | true => simp [ViosndBar.space, spaceOf, hport, h.ports bar w hwindow hport]
      | false => simp [ViosndBar.space, spaceOf, hport]

theorem WaveTracks.lengths {d : WaveBars} (h : WaveTracks windows d s) (bytes : ℕ → BitVec 8)
    (base : ℕ → Option ℕ+) :
    (List.range pciType0Addresses).map d.viosndGetResourceLength =
      (List.range pciType0Addresses).map
        (viosndGetResourceLength (deviceOf bytes windows base)) := by
  apply List.map_congr_left
  intro bar hbar
  have hlt := List.mem_range.mp hbar
  rw [resourceLength_deviceOf bytes hlt, WaveBars.viosndGetResourceLength, h.bars bar hlt]
  cases windows bar with
  | none => simp
  | some w => simp [Nat.not_le.mpr hlt]

def entryOf (base : ℕ → Option ℕ+) (place : ℕ × Window) : WdfBar where
  iBar := place.1
  basePA := place.2.region.start
  uLength := place.2.length
  pBase := if place.2.region.isPort then some place.2.basePA else base place.1
  bPortSpace := place.2.region.isPort

structure WdfTracks (windows : ℕ → Option Window) (places : List (ℕ × Window)) (d : WdfBars)
    (s : Mappings) : Prop where
  lists : Lists windows places
  pciBars : d.pciBars = places.map (entryOf s.base)
  io : d.io = s.io

private theorem findBar_places {places : List (ℕ × Window)} (h : Lists windows places)
    (base : ℕ → Option ℕ+) (bar : ℕ) :
    findBar (places.map (entryOf base)) bar = (windows bar).map fun w => entryOf base (bar, w) := by
  rw [findBar, List.find?_map]
  cases hwindow : windows bar with
  | none =>
      have hnone : places.find? ((fun b => decide (b.iBar = bar)) ∘ entryOf base) = none := by
        apply List.find?_eq_none.mpr
        intro place hplace hbar
        have hsame : place.1 = bar := of_decide_eq_true hbar
        have hlisted := (h.mem place.1 place.2).mp hplace
        rw [hsame, hwindow] at hlisted
        cases hlisted
      rw [hnone]
      rfl
  | some w =>
      have hmem := (h.mem bar w).mpr hwindow
      rw [Tables.find?_of_alone hmem]
      · rfl
      · simp [entryOf]
      · intro place hplace hbar
        have hsame : place.1 = bar := of_decide_eq_true hbar
        have hlisted := (h.mem place.1 place.2).mp hplace
        rw [hsame, hwindow] at hlisted
        rw [Option.some.inj hlisted, ← hsame]

private theorem entryOf_update {base : ℕ → Option ℕ+} {bar : ℕ} {place : ℕ × Window}
    (hne : place.1 ≠ bar) (grant : Option ℕ+) :
    entryOf (Function.update base bar grant) place = entryOf base place := by
  simp [entryOf, hne]

private theorem setBase_places {places : List (ℕ × Window)} (h : (places.map Prod.fst).Nodup)
    {base : ℕ → Option ℕ+} {bar : ℕ} {w : Window} (hmem : (bar, w) ∈ places)
    (hmemory : w.region.isPort = false) (grant : Option ℕ+) :
    setBase bar grant (places.map (entryOf base)) =
      places.map (entryOf (Function.update base bar grant)) := by
  induction places with
  | nil => simp at hmem
  | cons place places ih =>
      obtain ⟨hfirst, hrest⟩ := List.nodup_cons.mp h
      rw [List.map_cons, List.map_cons, setBase]
      by_cases hbar : place.1 = bar
      · have habsent : ∀ other ∈ places, other.1 ≠ bar := by
          intro other hother hsame
          apply hfirst
          rw [hbar, ← hsame]
          exact List.mem_map_of_mem hother
        have hthis : place = (bar, w) := by
          cases List.mem_cons.mp hmem with
          | inl hsame => exact hsame.symm
          | inr hlater => exact absurd rfl (habsent _ hlater)
        have hothers : places.map (entryOf (Function.update base bar grant)) =
            places.map (entryOf base) :=
          List.map_congr_left fun other hother => entryOf_update (habsent other hother) grant
        have hfound : (entryOf base place).iBar = bar := hbar
        rw [if_pos hfound, hothers, hthis]
        simp [entryOf, hmemory]
      · have hlater : (bar, w) ∈ places := by
          apply (List.mem_cons.mp hmem).resolve_left
          intro hsame
          exact hbar (congrArg Prod.fst hsame).symm
        have hother : (entryOf base place).iBar ≠ bar := hbar
        rw [if_neg hother, entryOf_update hbar, ih hrest hlater]

theorem WdfTracks.step {places : List (ℕ × Window)} {d : WdfBars}
    (h : WdfTracks windows places d s) (call : MapCall) :
    (d.pciMapAddressRange call).2 = (serve true windows s call).2 ∧
      WdfTracks windows places (d.pciMapAddressRange call).1 (serve true windows s call).1 := by
  have hfind := findBar_places h.lists s.base call.bar
  rw [← h.pciBars] at hfind
  cases hwindow : windows call.bar with
  | none =>
      rw [hwindow, Option.map_none] at hfind
      rw [serve_none hwindow, WdfBars.pciMapAddressRange, hfind]
      exact ⟨rfl, h⟩
  | some w =>
      rw [hwindow, Option.map_some] at hfind
      simp only [WdfBars.pciMapAddressRange, hfind, entryOf]
      cases hport : w.region.isPort with
      | true =>
          rw [serve_port hwindow hport, if_pos rfl]
          exact ⟨rfl, h⟩
      | false =>
          cases hbase : s.base call.bar with
          | some va =>
              rw [serve_mapped hwindow hport hbase]
              exact ⟨rfl, h⟩
          | none =>
              rw [serve_unmapped hwindow hport hbase (Or.inl rfl)]
              refine ⟨rfl, h.lists, ?_, ?_⟩
              · have hmem := (h.lists.mem call.bar w).mpr hwindow
                dsimp only
                rw [h.pciBars]
                exact setBase_places h.lists.nodup hmem hport call.grant
              · simp only [h.io]
                rfl

theorem WdfTracks.space {places : List (ℕ × Window)} {d : WdfBars}
    (h : WdfTracks windows places d s) :
    (pciFreeBars d).io = s.io.unmapAll (places.filterMap (spaceOf s.base)) := by
  have hspaces : d.pciBars.filterMap WdfBar.space = places.filterMap (spaceOf s.base) := by
    rw [h.pciBars, List.filterMap_map]
    apply List.filterMap_congr
    intro place hplace
    cases hport : place.2.region.isPort with
    | true => simp [WdfBar.space, entryOf, spaceOf, hport]
    | false => simp [WdfBar.space, entryOf, spaceOf, hport]
  simp only [pciFreeBars, hspaces, h.io]

theorem WdfTracks.lengths {places : List (ℕ × Window)} {d : WdfBars}
    (h : WdfTracks windows places d s) (bytes : ℕ → BitVec 8) (base : ℕ → Option ℕ+) :
    (List.range pciType0Addresses).map d.pciGetResourceLen =
      (List.range pciType0Addresses).map
        (viosndGetResourceLength (deviceOf bytes windows base)) := by
  apply List.map_congr_left
  intro bar hbar
  rw [WdfBars.pciGetResourceLen, h.pciBars, findBar_places h.lists,
    resourceLength_deviceOf bytes (List.mem_range.mp hbar)]
  cases windows bar with
  | none => rfl
  | some w => rfl

end

/-! ## What the system reports -/

structure Describes (r : Descriptor) (w : Window) : Prop where
  type : r.type = if w.region.isPort then .port else .memory
  start : r.start = w.region.start
  length : r.length = w.length
  flag : r.flags &&& cmResourcePortIo ≠ 0 ↔ w.region.isPort = true

/-- The resources are those of the device, in any order and among others. -/
structure Reports (h : Header) (resources : List Descriptor) : Prop where
  described : ∀ r ∈ resources, r.isBar = true → ∃ bar w, h.window bar = some w ∧ Describes r w
  complete : ∀ bar w, h.window bar = some w → ∃ r ∈ resources, Describes r w
  once : ((resources.filter Descriptor.isBar).map Descriptor.start).Nodup

section

variable {h : Header} {resources : List Descriptor} {r r' : Descriptor} {w : Window} {bar : ℕ}

private theorem Header.window_lt (h : Header) (bar : ℕ) (hwindow : (h.window bar).isSome = true) :
    bar < pciType0Addresses := by
  obtain ⟨w, hw⟩ := Option.isSome_iff_exists.mp hwindow
  have hbounds := places_bounds (h.window_eq_some_iff.mp hw).1
  rw [h.fits] at hbounds
  omega

theorem Describes.isBar (hr : Describes r w) : r.isBar = true := by
  have htype := hr.type
  cases hport : w.region.isPort <;> simp [Descriptor.isBar, htype, hport]

theorem Describes.index (hr : Describes r w) (hwindow : h.window bar = some w) :
    virtioGetBarIndex h.baseAddresses r.start = some bar := by
  rw [hr.start]
  exact (h.barIndex_eq_some_iff w.used).mpr ⟨w, hwindow, rfl⟩

private theorem Describes.viosndIndex (hr : Describes r w) (hwindow : h.window bar = some w) :
    viosndBarIndex h.baseAddresses r = some bar := by
  have hlt := h.window_lt bar (by simp [hwindow])
  simp [viosndBarIndex, hr.index hwindow, hlt]

theorem Reports.alone (hr : Reports h resources) (hmem : r ∈ resources) (hbar : r.isBar = true)
    (hwindow : h.window bar = some w) (hdescribes : Describes r w) (hmem' : r' ∈ resources)
    (hbar' : r'.isBar = true) (hindex : virtioGetBarIndex h.baseAddresses r'.start = some bar) :
    r' = r := by
  obtain ⟨bar', w', hwindow', hdescribes'⟩ := hr.described r' hmem' hbar'
  rw [hdescribes'.index hwindow'] at hindex
  rw [Option.some.inj hindex, hwindow] at hwindow'
  have hstart : r'.start = r.start := by
    rw [hdescribes'.start, hdescribes.start, Option.some.inj hwindow']
  apply List.inj_on_of_nodup_map hr.once _ _ hstart
  · exact List.mem_filter.mpr ⟨hmem', hbar'⟩
  · exact List.mem_filter.mpr ⟨hmem, hbar⟩

/-! ### The table -/

private theorem Reports.fill_absent {type : ResourceType} (hr : Reports h resources)
    (htype : type = .port ∨ type = .memory)
    (hother : ∀ w, h.window bar = some w → ∀ r, Describes r w → r.type ≠ type)
    (change : Descriptor → ViosndBar → ViosndBar) (t : ℕ → ViosndBar) :
    Tables.fill (viosndBarIndex h.baseAddresses) change t
      (resources.filter fun r => r.type = type) bar = t bar := by
  apply Tables.fill_of_absent
  intro r hmem hindex
  obtain ⟨hmem, hsame⟩ := List.mem_filter.mp hmem
  have hsame : r.type = type := of_decide_eq_true hsame
  have hbar : r.isBar = true := by
    rw [Descriptor.isBar, hsame]
    cases htype with
    | inl hport => simp [hport]
    | inr hmemory => simp [hmemory]
  obtain ⟨bar', w, hwindow, hdescribes⟩ := hr.described r hmem hbar
  rw [hdescribes.viosndIndex hwindow] at hindex
  rw [Option.some.inj hindex] at hwindow
  exact hother w hwindow r hdescribes hsame

private theorem Reports.fill_there (hr : Reports h resources) (hwindow : h.window bar = some w)
    (hmem : r ∈ resources) (hdescribes : Describes r w)
    (change : Descriptor → ViosndBar → ViosndBar) (t : ℕ → ViosndBar) :
    Tables.fill (viosndBarIndex h.baseAddresses) change t
      (resources.filter fun r' => r'.type = r.type) bar = change r (t bar) := by
  have hbar := hdescribes.isBar
  have hsameBar : ∀ r' : Descriptor, r'.type = r.type → r'.isBar = true := by
    intro r' hsame
    rwa [Descriptor.isBar, hsame]
  apply Tables.fill_of_alone
  · have hnodup : (resources.filter Descriptor.isBar).Nodup := hr.once.of_map
    have hbars : resources.filter (fun r' => r'.type = r.type) =
        (resources.filter Descriptor.isBar).filter fun r' => r'.type = r.type := by
      rw [List.filter_filter]
      apply List.filter_congr
      intro r' hr'
      by_cases hsame : r'.type = r.type
      · simp [hsame, hsameBar r' hsame]
      · simp [hsame]
    rw [hbars]
    exact hnodup.filter _
  · exact List.mem_filter.mpr ⟨hmem, by simp⟩
  · exact hdescribes.viosndIndex hwindow
  · intro r' hmem' hindex
    obtain ⟨hmem', hsame⟩ := List.mem_filter.mp hmem'
    apply hr.alone hmem hbar hwindow hdescribes hmem' (hsameBar r' (of_decide_eq_true hsame))
    exact (Option.filter_eq_some_iff.mp hindex).1

private theorem Reports.waveTracks (hr : Reports h resources) (io : IoSpaces) :
    WaveTracks h.window
      ⟨viosndMapBars h.baseAddresses resources fun _ => ⟨false, false, 0, 0, none⟩, io⟩
      ⟨fun _ => none, io⟩ := by
  constructor
  · intro bar hbar
    dsimp only [viosndMapBars]
    cases hwindow : h.window bar with
    | none =>
        have hnone : ∀ w, h.window bar ≠ some w := by simp [hwindow]
        rw [hr.fill_absent (Or.inl rfl) (fun w hw => absurd hw (hnone w)),
          hr.fill_absent (Or.inr rfl) (fun w hw => absurd hw (hnone w))]
        rfl
    | some w =>
        obtain ⟨r, hmem, hdescribes⟩ := hr.complete bar w hwindow
        have hsame : ∀ w', h.window bar = some w' → w' = w := by simp [hwindow, eq_comm]
        have htype := hdescribes.type
        cases hport : w.region.isPort with
        | true =>
            have hother : ∀ w', h.window bar = some w' → ∀ r, Describes r w' →
                r.type ≠ .memory := by
              intro w' hw' r' hr'
              simp [hr'.type, hsame w' hw', hport]
            rw [hport, if_pos rfl] at htype
            have hthere := hr.fill_there hwindow hmem hdescribes (ViosndBar.describe true)
            rw [htype] at hthere
            rw [hthere, hr.fill_absent (Or.inr rfl) hother, ViosndBar.describe, hdescribes.start,
              hdescribes.length, Option.elim_some, hport]
        | false =>
            have hother : ∀ w', h.window bar = some w' → ∀ r, Describes r w' →
                r.type ≠ .port := by
              intro w' hw' r' hr'
              simp [hr'.type, hsame w' hw', hport]
            rw [hport, if_neg Bool.false_ne_true] at htype
            have hthere := hr.fill_there hwindow hmem hdescribes (ViosndBar.describe false)
            rw [htype] at hthere
            rw [hr.fill_absent (Or.inl rfl) hother, hthere, ViosndBar.describe, hdescribes.start,
              hdescribes.length, Option.elim_some, hport]
  · exact fun _ _ _ _ => rfl
  · rfl

/-! ### The list -/

private theorem pointer_window (w : Window) : pointer w.region.start = some w.basePA := by
  have hpos : 0 < w.region.start.toNat := w.basePA.pos
  rw [pointer, dif_pos hpos]
  rfl

theorem Describes.wdfBar (hr : Describes r w) (bar : ℕ) :
    wdfBar bar r = entryOf (fun _ => none) (bar, w) := by
  cases hport : w.region.isPort with
  | true =>
      have hflag : ¬ r.flags &&& cmResourcePortIo = 0#16 := hr.flag.mpr hport
      simp [Bars.wdfBar, entryOf, hr.start, hr.length, hport, hflag, pointer_window]
  | false =>
      have hflag : r.flags &&& cmResourcePortIo = 0 := by
        by_contra hne
        have hyes := hr.flag.mp hne
        rw [hport] at hyes
        cases hyes
      simp [Bars.wdfBar, entryOf, hr.start, hr.length, hport, hflag]

def Header.placeOf (h : Header) (r : Descriptor) : Option (ℕ × Window) :=
  (virtioGetBarIndex h.baseAddresses r.start).bind fun bar =>
    (h.window bar).map fun w => (bar, w)

private theorem Describes.placeOf (hr : Describes r w) (hwindow : h.window bar = some w) :
    h.placeOf r = some (bar, w) := by
  rw [Header.placeOf, hr.index hwindow, Option.bind_some, hwindow, Option.map_some]

/-- The windows of the BARs among the resources, the last one first. -/
def Header.placesOf (h : Header) (resources : List Descriptor) : List (ℕ × Window) :=
  ((resources.filter Descriptor.isBar).filterMap h.placeOf).reverse

private theorem Reports.lists (hr : Reports h resources) :
    Lists h.window (h.placesOf resources) := by
  have hmem : ∀ bar w, (bar, w) ∈ h.placesOf resources ↔ h.window bar = some w := by
    intro bar w
    rw [Header.placesOf, List.mem_reverse, List.mem_filterMap]
    constructor
    · rintro ⟨r, -, hplace⟩
      obtain ⟨bar', -, hwindow⟩ := Option.bind_eq_some_iff.mp hplace
      obtain ⟨w', hw', hsame⟩ := Option.map_eq_some_iff.mp hwindow
      rw [← (Prod.mk.inj hsame).1, ← (Prod.mk.inj hsame).2, hw']
    · intro hwindow
      obtain ⟨r, hmem, hdescribes⟩ := hr.complete bar w hwindow
      exact ⟨r, List.mem_filter.mpr ⟨hmem, hdescribes.isBar⟩, hdescribes.placeOf hwindow⟩
  constructor
  · -- the addresses are different, and each index has one address
    apply List.Nodup.of_map fun bar => (h.window bar).map fun w => w.region.start
    have hstarts : ((h.placesOf resources).map Prod.fst).map
        (fun bar => (h.window bar).map fun w => w.region.start) =
        (((resources.filter Descriptor.isBar).map Descriptor.start).map some).reverse := by
      rw [Header.placesOf, List.map_reverse, List.map_reverse, List.map_map, List.map_filterMap,
        List.map_map, ← List.filterMap_eq_map]
      congr 1
      apply List.filterMap_congr
      intro r hmem
      obtain ⟨hmem, hbar⟩ := List.mem_filter.mp hmem
      obtain ⟨bar, w, hwindow, hdescribes⟩ := hr.described r hmem hbar
      simp [hdescribes.placeOf hwindow, hwindow, hdescribes.start]
    rw [hstarts, List.nodup_reverse]
    exact hr.once.map (Option.some_injective _)
  · exact hmem

private theorem placesOf_cons (hdescribes : Describes r w) (hwindow : h.window bar = some w) :
    h.placesOf (r :: resources) = h.placesOf resources ++ [(bar, w)] := by
  rw [Header.placesOf, List.filter_cons_of_pos hdescribes.isBar, List.filterMap_cons,
    hdescribes.placeOf hwindow, List.reverse_cons]
  rfl

private theorem placesOf_cons_other (hbar : r.isBar = false) :
    h.placesOf (r :: resources) = h.placesOf resources := by
  rw [Header.placesOf, List.filter_cons_of_neg (by simp [hbar])]
  rfl

private theorem pciAllocFrom_granted (nInterrupts nMSIInterrupts : ℕ)
    (resources : List (Descriptor × Bool)) (d : WdfBars)
    (hdescribed : ∀ p ∈ resources, p.1.isBar = true →
      ∃ bar w, h.window bar = some w ∧ Describes p.1 w)
    (hgranted : ∀ p ∈ resources, p.1.isBar = true → p.2 = true) :
    ∃ d', pciAllocFrom h.baseAddresses nInterrupts nMSIInterrupts resources d = (.ok (), d') ∧
      d'.pciBars =
        (h.placesOf (resources.map Prod.fst)).map (entryOf fun _ => none) ++ d.pciBars ∧
      d'.io = d.io := by
  induction resources generalizing nInterrupts nMSIInterrupts d with
  | nil => exact ⟨_, rfl, rfl, rfl⟩
  | cons p resources ih =>
      obtain ⟨r, granted⟩ := p
      have hrest := fun nInterrupts nMSIInterrupts d => ih nInterrupts nMSIInterrupts d
        (fun p hp => hdescribed p (List.mem_cons_of_mem _ hp))
        (fun p hp => hgranted p (List.mem_cons_of_mem _ hp))
      rw [List.map_cons]
      cases hbar : r.isBar with
      | true =>
          obtain ⟨bar, w, hwindow, hdescribes⟩ := hdescribed _ List.mem_cons_self hbar
          have hgrant : granted = true := hgranted _ List.mem_cons_self hbar
          obtain ⟨d', halloc, hbars, hio⟩ := hrest nInterrupts nMSIInterrupts { d with
            pciBars := wdfBar bar r :: d.pciBars }
          refine ⟨d', ?_, ?_, hio⟩
          · rw [pciAllocFrom, if_pos hbar, if_neg (by simp [hgrant]), hdescribes.index hwindow]
            exact halloc
          · rw [hbars, placesOf_cons hdescribes hwindow, hdescribes.wdfBar]
            simp
      | false =>
          rw [placesOf_cons_other hbar, pciAllocFrom, if_neg (by simp [hbar])]
          split
          · exact hrest _ _ d
          · exact hrest _ _ d

private theorem pciAllocFrom_refused (nInterrupts nMSIInterrupts : ℕ)
    (resources : List (Descriptor × Bool)) (d : WdfBars)
    (hdescribed : ∀ p ∈ resources, p.1.isBar = true →
      ∃ bar w, h.window bar = some w ∧ Describes p.1 w)
    (hrefused : ∃ p ∈ resources, p.1.isBar = true ∧ p.2 = false)
    (hspaces : d.pciBars.filterMap WdfBar.space = []) :
    ∃ d', pciAllocFrom h.baseAddresses nInterrupts nMSIInterrupts resources d =
      (.error .insufficientResources, d') ∧ d'.io = d.io := by
  induction resources generalizing nInterrupts nMSIInterrupts d with
  | nil => simp at hrefused
  | cons p resources ih =>
      obtain ⟨r, granted⟩ := p
      have hrest := fun nInterrupts nMSIInterrupts d => ih nInterrupts nMSIInterrupts d
        (fun p hp => hdescribed p (List.mem_cons_of_mem _ hp))
      cases hbar : r.isBar with
      | true =>
          rw [pciAllocFrom, if_pos hbar]
          cases granted with
          | false =>
              rw [if_pos rfl]
              exact ⟨_, rfl, by simp [pciFreeBars, hspaces, IoSpaces.unmapAll]⟩
          | true =>
              obtain ⟨bar, w, hwindow, hdescribes⟩ := hdescribed (r, true) List.mem_cons_self hbar
              dsimp only at hdescribes
              have hspace : (wdfBar bar r).space = none := by
                rw [hdescribes.wdfBar]
                cases hport : w.region.isPort <;> simp [WdfBar.space, entryOf, hport]
              rw [if_neg (by simp), hdescribes.index hwindow]
              apply hrest
              · simpa using hrefused
              · simpa [hspace] using hspaces
      | false =>
          have hlater : ∃ p ∈ resources, p.1.isBar = true ∧ p.2 = false := by
            simpa [hbar] using hrefused
          rw [pciAllocFrom, if_neg (by simp [hbar])]
          split
          · exact hrest _ _ d hlater hspaces
          · exact hrest _ _ d hlater hspaces

end

/-- With the resources of the device both drivers find its windows and serve them: each window is
mapped at most once, at one place for the whole session, and unmapped at the end, and inside the
windows the answers of the two drivers are the same. The ACX driver starts unless the pool refuses
it a block; then nothing is mapped. -/
theorem sessions_serve (h : Header) (resources : List (Descriptor × Bool))
    (hreports : Reports h (resources.map Prod.fst)) (io : IoSpaces) (calls : List MapCall) :
    (∀ basePA bar, basePA ≠ 0 → (virtioGetBarIndex h.baseAddresses basePA = some bar ↔
      ∃ w, h.window bar = some w ∧ w.region.start = basePA)) ∧
    Serves h.window calls
      (waveSession h.baseAddresses (resources.map Prod.fst) io calls).1 io
      (waveSession h.baseAddresses (resources.map Prod.fst) io calls).2 ∧
    ((∃ p ∈ resources, p.1.isBar = true ∧ p.2 = false) →
      acxSession (some h.baseAddresses) resources io calls =
        (.error .insufficientResources, io)) ∧
    ((∀ p ∈ resources, p.1.isBar = true → p.2 = true) →
      ∃ answers io', acxSession (some h.baseAddresses) resources io calls = (.ok answers, io') ∧
        Serves h.window calls answers io io' ∧
        ((∀ call ∈ calls, InWindow h.window call) →
          answers = (waveSession h.baseAddresses (resources.map Prod.fst) io calls).1)) := by
  have hbars := h.window_lt
  have hlisted := listed_lists hbars
  -- the WaveRT driver serves lazily
  obtain ⟨hwaveAnswers, hwaveEnd⟩ := respond_related (fun d s call hR => hR.step hbars call)
    (hreports.waveTracks io) calls
  have hwave : Serves h.window calls
      (waveSession h.baseAddresses (resources.map Prod.fst) io calls).1 io
      (waveSession h.baseAddresses (resources.map Prod.fst) io calls).2 := by
    dsimp only [waveSession]
    rw [hwaveEnd.space, hwaveAnswers]
    exact respond_serves hbars hlisted false io calls hwaveEnd.lengths
  have hdescribed : ∀ p ∈ resources, p.1.isBar = true →
      ∃ bar w, h.window bar = some w ∧ Describes p.1 w :=
    fun p hp => hreports.described p.1 (List.mem_map_of_mem hp)
  refine ⟨fun _ _ hused => h.barIndex_eq_some_iff hused, hwave, ?_, ?_⟩
  · intro hrefused
    obtain ⟨d, halloc, hio⟩ :=
      pciAllocFrom_refused 0 0 resources ⟨[], 0, 0, io⟩ hdescribed hrefused rfl
    rw [acxSession, pciAllocBars, halloc]
    exact congrArg _ hio
  · intro hgranted
    obtain ⟨d, halloc, hpciBars, hio⟩ :=
      pciAllocFrom_granted 0 0 resources ⟨[], 0, 0, io⟩ hdescribed hgranted
    rw [List.append_nil] at hpciBars
    have hlists := hreports.lists
    -- the ACX driver serves eagerly
    obtain ⟨hacxAnswers, hacxEnd⟩ := respond_related (t := ⟨fun _ => none, io⟩)
      (fun d s call (hR : WdfTracks h.window _ d s) => hR.step call)
      ⟨hlists, hpciBars, hio⟩ calls
    refine ⟨_, _, by rw [acxSession, pciAllocBars, halloc], ?_, ?_⟩
    · rw [hacxEnd.space, hacxAnswers]
      exact respond_serves hbars hlists true io calls hacxEnd.lengths
    · intro hinside
      have heager := respond_congr
        (fun call hcall s => serve_eager_eq (s := s) (hinside call hcall)) ⟨fun _ => none, io⟩
      dsimp only [waveSession]
      rw [hacxAnswers, hwaveAnswers, heager, hacxEnd.lengths (fun _ => 0) fun _ => none,
        hwaveEnd.lengths]

/-- A port, a memory region, two unused words, and a memory region with a wide address. -/
def mixedRegions : List Region :=
  [.port 0x3000, .memory32 0xFEBD100 false false, .memory32 0 false false,
    .memory32 0 false false, .memory64 0x80000000 true]

def mixedPort : Window := ⟨.port 0x3000, by decide, 0x40⟩

def mixedNarrow : Window := ⟨.memory32 0xFEBD100 false false, by decide, 0x1000⟩

def mixedWide : Window := ⟨.memory64 0x80000000 true, by decide, 0x4000⟩

def mixedHeader : Header where
  baseAddresses i := (mixedRegions.flatMap Region.words).getD i 0
  regions := mixedRegions
  lengths := fun
    | 0 => 0x40
    | 1 => 0x1000
    | _ => 0x4000
  holds := ⟨by decide, by decide, by decide, by decide, by decide, trivial⟩
  fits := by decide
  apart := by decide

def mixedResources : List (Descriptor × Bool) :=
  [(⟨.memory, 0, 0x800000000, 0x4000⟩, true), (⟨.interrupt, 3, 0, 0⟩, true),
    (⟨.port, 1, 0xC000, 0x40⟩, true), (⟨.memory, 0, 0xFEBD1000, 0x1000⟩, true)]

private theorem mixedHeader_reports : Reports mixedHeader (mixedResources.map Prod.fst) := by
  have hport : Describes ⟨.port, 1, 0xC000, 0x40⟩ mixedPort := ⟨rfl, rfl, rfl, by decide⟩
  have hnarrow : Describes ⟨.memory, 0, 0xFEBD1000, 0x1000⟩ mixedNarrow :=
    ⟨rfl, rfl, rfl, by decide⟩
  have hwide : Describes ⟨.memory, 0, 0x800000000, 0x4000⟩ mixedWide := ⟨rfl, rfl, rfl, by decide⟩
  have hwindow0 : mixedHeader.window 0 = some mixedPort := rfl
  have hwindow1 : mixedHeader.window 1 = some mixedNarrow := rfl
  have hwindow4 : mixedHeader.window 4 = some mixedWide := rfl
  constructor
  · intro r hr hbar
    simp only [mixedResources, List.map_cons, List.map_nil, List.mem_cons, List.not_mem_nil,
      or_false] at hr
    rcases hr with rfl | rfl | rfl | rfl
    · exact ⟨4, mixedWide, hwindow4, hwide⟩
    · cases hbar
    · exact ⟨0, mixedPort, hwindow0, hport⟩
    · exact ⟨1, mixedNarrow, hwindow1, hnarrow⟩
  · intro bar w hwindow
    have hlt : bar < 6 := mixedHeader.window_lt bar (by simp [hwindow])
    interval_cases bar
    · exact ⟨_, by decide, Option.some.inj (hwindow0.symm.trans hwindow) ▸ hport⟩
    · exact ⟨_, by decide, Option.some.inj (hwindow1.symm.trans hwindow) ▸ hnarrow⟩
    · cases hwindow
    · cases hwindow
    · exact ⟨_, by decide, Option.some.inj (hwindow4.symm.trans hwindow) ▸ hwide⟩
    · cases hwindow
  · decide

def mixedCalls : List MapCall :=
  [⟨4, 0x1000, some 0x50000⟩, ⟨4, 0x2000, none⟩, ⟨0, 0x10, none⟩]

private theorem mixedCalls_inWindow : ∀ call ∈ mixedCalls, InWindow mixedHeader.window call := by
  intro call hcall w hwindow
  simp only [mixedCalls, List.mem_cons, List.not_mem_nil, or_false] at hcall
  have hwide : mixedHeader.window 4 = some mixedWide := rfl
  have hport : mixedHeader.window 0 = some mixedPort := rfl
  rcases hcall with rfl | rfl | rfl
  · obtain rfl := Option.some.inj (hwide.symm.trans hwindow)
    decide
  · obtain rfl := Option.some.inj (hwide.symm.trans hwindow)
    decide
  · obtain rfl := Option.some.inj (hport.symm.trans hwindow)
    decide

theorem sessions_serve_mixed :
    Serves mixedHeader.window mixedCalls
      ⟨[some 0x51000, some 0x52000, some 0xC010], [0x40, 0x1000, 0, 0, 0x4000, 0]⟩ ⟨[], []⟩
      ⟨[(0x50000, 0x4000)], [(0x50000, 0x4000)]⟩ ∧
    ∃ io, acxSession (some mixedHeader.baseAddresses) mixedResources ⟨[], []⟩ mixedCalls =
      (.ok ⟨[some 0x51000, some 0x52000, some 0xC010], [0x40, 0x1000, 0, 0, 0x4000, 0]⟩, io) := by
  have hsession : waveSession mixedHeader.baseAddresses (mixedResources.map Prod.fst) ⟨[], []⟩
      mixedCalls =
        (⟨[some 0x51000, some 0x52000, some 0xC010], [0x40, 0x1000, 0, 0, 0x4000, 0]⟩,
          ⟨[(0x50000, 0x4000)], [(0x50000, 0x4000)]⟩) := by decide
  obtain ⟨-, hserves, -, hstarts⟩ := sessions_serve mixedHeader mixedResources mixedHeader_reports
    ⟨[], []⟩ mixedCalls
  obtain ⟨answers, io, hacx, -, hagree⟩ := hstarts (by decide)
  rw [hsession] at hserves hagree
  refine ⟨hserves, io, ?_⟩
  rw [hacx, hagree mixedCalls_inWindow]

end Viosnd.Pci.Bars
