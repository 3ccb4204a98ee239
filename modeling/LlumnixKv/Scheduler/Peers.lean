import LlumnixKv.Machinery.Dict
import Mathlib.Data.Int.Notation

/-!
# Scheduler/Peers — who runs at an address

    _id2info   peer id ↦ what it registered        _addr2id   address ↦ peer id

`PeerManager._do_main` takes a listing of the naming service over into a `PeerMap`: exits first, then
updates, then additions, each deleting the address its peer had before.  Where no address passes from
a peer that stays to another one, the two maps are inverse to each other after every refresh
(`refreshes_consistent`).  An address that two peers register is deleted with the first of them, and
the second one's deletion raises.
-/

open List Machinery

namespace LlumnixKv

/-! ## The tables -/

/-- `PeerInfo`. -/
structure PeerInfo where
  role : String := ""
  tpsize : ℤ := -1
  ctimeUs : ℤ := -1
  addr : String := ""
  port : ℤ := 33000
  dprank : ℤ := 0
  deriving DecidableEq, Repr

/-- `(peer.addr, peer.port)`. -/
def PeerInfo.address (p : PeerInfo) : String × ℤ := (p.addr, p.port)

/-- `PeerMap`. -/
structure PeerMap where
  addr2id : Dict (String × ℤ) String := .empty
  id2info : Dict String PeerInfo := .empty
  deriving DecidableEq, Repr

namespace PeerMap

variable (m : PeerMap)

/-- `del self._addr2id[addr]`; the error is the map a `KeyError` leaves behind. -/
def delAddr (addr : String × ℤ) : Except PeerMap PeerMap :=
  if (m.addr2id.get? addr).isSome then .ok { m with addr2id := m.addr2id.erase addr } else .error m

/-- A peer's old entry and its address go, if there is one. -/
def dropOld (peerid : String) : Except PeerMap PeerMap :=
  match m.id2info.get? peerid with
  | none => .ok m
  | some old => ({ m with id2info := m.id2info.erase peerid } : PeerMap).delAddr old.address

/-- `__setitem__`. -/
def setItem (peerid : String) (peer : PeerInfo) : Except PeerMap PeerMap := do
  let m ← m.dropOld peerid
  .ok { addr2id := m.addr2id.set peer.address peerid, id2info := m.id2info.set peerid peer }

/-- `pop`; `_do_main` calls it for peers that are there. -/
def pop (peerid : String) : Except PeerMap PeerMap := m.dropOld peerid

/-- `get_peerid`. -/
def getPeerid (addr : String × ℤ) : Option String := m.addr2id.get? addr

end PeerMap

/-- `new_running`: the last entry of an id counts. -/
def newRunning (peers : List (String × PeerInfo)) : Dict String PeerInfo :=
  peers.foldl (fun d p => d.set p.1 p.2) .empty

namespace PeerMap

variable (m : PeerMap) (peers : List (String × PeerInfo))

/-- The peers that are not listed any more. -/
def exited : List String :=
  m.id2info.keys.filter fun peerid => ((newRunning peers).get? peerid).isNone

/-- `updated_peers` and what is left of `new_running`: the peers whose entry is written, in order. -/
def written : List (String × PeerInfo) :=
  (m.id2info.entries.filterMap fun e => ((newRunning peers).get? e.1).bind fun new =>
    if e.2.ctimeUs ≠ new.ctimeUs then some (e.1, new) else none) ++
  (newRunning peers).entries.filter fun e => (m.id2info.get? e.1).isNone

/-- `_do_main`, its connections aside. -/
def doMain : Except PeerMap PeerMap := do
  let m' ← (m.exited peers).foldlM pop m
  (m.written peers).foldlM (fun m e => m.setItem e.1 e.2) m'

/-- A sequence of refreshes, up to the first that raises. -/
def refreshes (listings : List (List (String × PeerInfo))) : Except PeerMap PeerMap :=
  listings.foldlM doMain m

/-! ## Consistency -/

/-- The two tables are inverse to each other. -/
def Consistent : Prop := ∀ addr peerid,
  m.addr2id.get? addr = some peerid ↔
    ∃ peer, m.id2info.get? peerid = some peer ∧ peer.address = addr

/-- No other peer is at the address. -/
def Free (peerid : String) (addr : String × ℤ) : Prop :=
  ∀ other peer, m.id2info.get? other = some peer → peer.address = addr → other = peerid

/-- **The listing passes no address on between peers that stay**: where a peer's entry is written, its
address is not that of another peer that is listed, neither now nor in another entry written. -/
structure Exclusive (m : PeerMap) (peers : List (String × PeerInfo)) : Prop where
  running : ∀ e ∈ m.written peers, ∀ old ∈ m.id2info.entries,
    ((newRunning peers).get? old.1).isSome = true → old.2.address = e.2.address → old.1 = e.1
  listed : ∀ e ∈ m.written peers, ∀ e' ∈ m.written peers, e.2.address = e'.2.address → e.1 = e'.1

variable {m : PeerMap} {peers : List (String × PeerInfo)} {peerid : String} {peer : PeerInfo}

/-- Dropping a peer with its address keeps the tables inverse, and nothing raises. -/
theorem Consistent.dropOld (h : m.Consistent) (peerid : String) :
    ∃ m', m.dropOld peerid = .ok m' ∧ m'.Consistent ∧
      ∀ other, m'.id2info.get? other = if other = peerid then none else m.id2info.get? other := by
  rw [PeerMap.dropOld]
  cases hold : m.id2info.get? peerid with
  | none =>
    refine ⟨m, rfl, h, fun other => ?_⟩
    split
    · next heq => rw [heq, hold]
    · rfl
  | some old =>
    have haddr := (h old.address peerid).mpr ⟨old, hold, rfl⟩
    refine ⟨_, if_pos (by rw [haddr]; rfl), fun addr other => ?_, Dict.get?_erase _ _⟩
    simp only [Dict.get?_erase]
    by_cases hdropped : addr = old.address
    · -- the dropped peer was the only one at the address
      rw [if_pos hdropped]
      refine ⟨fun hnone => (by cases hnone), ?_⟩
      rintro ⟨peer, hpeer, hat⟩
      split at hpeer
      · cases hpeer
      · next hne =>
        have hother := (h old.address other).mpr ⟨peer, hpeer, hat.trans hdropped⟩
        exact absurd (Option.some.inj (hother.symm.trans haddr)) hne
    · rw [if_neg hdropped, h addr other]
      refine exists_congr fun peer => and_congr_left fun hat => ?_
      by_cases hself : other = peerid
      · have hne : m.id2info.get? other ≠ some peer := by
          rw [hself, hold]
          exact fun heq => hdropped (by rw [Option.some.inj heq, hat])
        rw [if_pos hself]
        exact ⟨fun hpeer => absurd hpeer hne, fun hnone => by cases hnone⟩
      · rw [if_neg hself]

/-- Writing a peer at a free address keeps them inverse. -/
theorem Consistent.setItem (h : m.Consistent) (hfree : m.Free peerid peer.address) :
    ∃ m', m.setItem peerid peer = .ok m' ∧ m'.Consistent ∧
      ∀ other, m'.id2info.get? other = if other = peerid then some peer else m.id2info.get? other := by
  obtain ⟨m₁, hm₁, hcons, hinfo⟩ := h.dropOld peerid
  refine ⟨_, by rw [PeerMap.setItem, hm₁]; rfl, fun addr other => ?_, fun other => ?_⟩
  · simp only [Dict.get?_set]
    by_cases hself : other = peerid
    · -- the peer is at its new address and nowhere else
      have hgone : m₁.addr2id.get? addr ≠ some other := fun hat => by
        obtain ⟨p, hp, -⟩ := (hcons addr other).mp hat
        rw [hinfo, if_pos hself] at hp
        cases hp
      rw [if_pos hself]
      split
      · next haddr => exact ⟨fun _ => ⟨peer, rfl, haddr.symm⟩, fun _ => by rw [hself]⟩
      · next haddr =>
        refine ⟨fun hat => absurd hat hgone, ?_⟩
        rintro ⟨p, hp, hat⟩
        exact absurd (by rw [← hat, Option.some.inj hp]) haddr
    · rw [if_neg hself]
      split
      · next haddr =>
        refine ⟨fun heq => absurd (Option.some.inj heq).symm hself, ?_⟩
        rintro ⟨p, hp, hat⟩
        rw [hinfo, if_neg hself] at hp
        exact absurd (hfree other p hp (hat.trans haddr)) hself
      · exact hcons addr other
  · rw [Dict.get?_set]
    split
    · rfl
    · next hself => rw [hinfo, if_neg hself]

/-- The exits. -/
theorem Consistent.pops : ∀ (ids : List String) {m : PeerMap}, m.Consistent →
    ∃ m', ids.foldlM pop m = .ok m' ∧ m'.Consistent ∧
      ∀ other, m'.id2info.get? other = if other ∈ ids then none else m.id2info.get? other
  | [], m, h => ⟨m, rfl, h, by simp⟩
  | peerid :: ids, m, h => by
      obtain ⟨m₁, hm₁, hcons, hinfo⟩ := h.dropOld peerid
      obtain ⟨m₂, hm₂, hcons₂, hinfo₂⟩ := Consistent.pops ids hcons
      exact ⟨m₂, by rw [foldlM_cons, pop, hm₁]; exact hm₂, hcons₂, by grind⟩

/-- The updates and additions, each at an address no other peer has. -/
theorem Consistent.writes : ∀ (es : List (String × PeerInfo)) {m : PeerMap}, m.Consistent →
    (∀ e ∈ es, m.Free e.1 e.2.address) →
    (∀ e ∈ es, ∀ e' ∈ es, e.2.address = e'.2.address → e.1 = e'.1) →
    ∃ m', es.foldlM (fun m e => m.setItem e.1 e.2) m = .ok m' ∧ m'.Consistent ∧
      ∀ other, (m'.id2info.get? other).isSome = true ↔
        (∃ e ∈ es, e.1 = other) ∨ (m.id2info.get? other).isSome = true
  | [], m, h, _, _ => ⟨m, rfl, h, by simp⟩
  | e :: es, m, h, hfree, hlisted => by
      obtain ⟨m₁, hm₁, hcons, hinfo⟩ := h.setItem (hfree e mem_cons_self)
      have hfree' : ∀ e' ∈ es, m₁.Free e'.1 e'.2.address := by
        intro e' he' other peer hpeer haddr
        rw [hinfo] at hpeer
        split at hpeer
        · next hself =>
          -- the peer just written
          obtain rfl := Option.some.inj hpeer
          exact hself.trans (hlisted e mem_cons_self e' (mem_cons_of_mem e he') haddr)
        · exact hfree e' (mem_cons_of_mem e he') other peer hpeer haddr
      obtain ⟨m₂, hm₂, hcons₂, hinfo₂⟩ := Consistent.writes es hcons hfree' fun e' he' e'' he'' =>
        hlisted e' (mem_cons_of_mem e he') e'' (mem_cons_of_mem e he'')
      refine ⟨m₂, by rw [foldlM_cons, hm₁]; exact hm₂, hcons₂, fun other => ?_⟩
      rw [hinfo₂, hinfo]
      grind

/-! ## Refreshes -/

theorem isSome_newRunning (other : String) :
    ((newRunning peers).get? other).isSome = true ↔ ∃ e ∈ peers, e.1 = other := by
  have hfold : ∀ (es : List (String × PeerInfo)) (d : Dict String PeerInfo),
      ((es.foldl (fun d p => d.set p.1 p.2) d).get? other).isSome = true ↔
        (∃ e ∈ es, e.1 = other) ∨ (d.get? other).isSome = true := by
    intro es
    induction es with
    | nil => simp
    | cons e es ih =>
      intro d
      rw [foldl_cons, ih, Dict.get?_set]
      grind
  rw [newRunning, hfold]
  simp

/-- A written peer is listed, and a listed one was there or is written. -/
theorem mem_written (m : PeerMap) (peers : List (String × PeerInfo)) (other : String) :
    ((∃ e ∈ m.written peers, e.1 = other) → ∃ e ∈ peers, e.1 = other) ∧
    ((∃ e ∈ peers, e.1 = other) → (m.id2info.get? other).isSome = true ∨
      ∃ e ∈ m.written peers, e.1 = other) := by
  simp only [← isSome_newRunning, written, mem_append, mem_filterMap, mem_filter,
    Option.isSome_iff_exists, Dict.get?_eq_some]
  constructor
  · rintro ⟨e, ⟨e', he', hbind⟩ | ⟨he, -⟩, rfl⟩
    · obtain ⟨new, hnew, hite⟩ := Option.bind_eq_some_iff.mp hbind
      exact ⟨new, by grind [Dict.get?_eq_some]⟩
    · exact ⟨e.2, he⟩
  · rintro ⟨new, hnew⟩
    cases hold : m.id2info.get? other with
    | none => exact .inr ⟨(other, new), .inr ⟨hnew, by rw [hold]; rfl⟩, rfl⟩
    | some old => exact .inl ⟨old, Dict.get?_eq_some.mp hold⟩

/-- **A refresh that passes no address on raises nothing**, keeps the tables inverse and leaves the
listed peers running. -/
theorem Consistent.doMain (h : m.Consistent) (hexcl : m.Exclusive peers) :
    ∃ m', m.doMain peers = .ok m' ∧ m'.Consistent ∧
      ∀ other, (m'.id2info.get? other).isSome = true ↔ ∃ e ∈ peers, e.1 = other := by
  obtain ⟨m₁, hm₁, hcons, hinfo⟩ := h.pops (m.exited peers)
  have hexited : ∀ other, other ∉ m.exited peers → (m.id2info.get? other).isSome = true →
      ((newRunning peers).get? other).isSome = true := by
    intro other hnot hsome
    obtain ⟨peer, hpeer⟩ := Option.isSome_iff_exists.mp hsome
    by_contra hnew
    refine hnot (mem_filter.mpr ⟨mem_map_of_mem (Dict.get?_eq_some.mp hpeer), ?_⟩)
    simpa using hnew
  have hfree : ∀ e ∈ m.written peers, m₁.Free e.1 e.2.address := by
    intro e he other peer hpeer haddr
    have hrunning := hexcl.running e he (other, peer)
    have hstays := hexited other
    grind [Dict.get?_eq_some]
  obtain ⟨m₂, hm₂, hcons₂, hinfo₂⟩ := hcons.writes (m.written peers) hfree hexcl.listed
  refine ⟨m₂, by rw [PeerMap.doMain, hm₁]; exact hm₂, hcons₂, fun other => ?_⟩
  have hwritten := mem_written m peers other
  have hgone : other ∈ m.exited peers → ¬∃ e ∈ peers, e.1 = other := fun hmem hlisted => by
    have hnone := (mem_filter.mp hmem).2
    rw [← isSome_newRunning] at hlisted
    simp [Option.isNone_iff_eq_none.mp hnone] at hlisted
  have hstays := hexited other
  rw [isSome_newRunning] at hstays
  rw [hinfo₂, hinfo]
  by_cases hmem : other ∈ m.exited peers
  · rw [if_pos hmem]
    exact ⟨fun h => hwritten.1 (h.resolve_right (by simp)), fun h => absurd h (hgone hmem)⟩
  · rw [if_neg hmem]
    exact ⟨fun h => h.elim hwritten.1 (hstays hmem), fun h => (hwritten.2 h).symm⟩

/-- Every refresh of the sequence passes no address on. -/
def Exclusives : PeerMap → List (List (String × PeerInfo)) → Prop
  | _, [] => True
  | m, peers :: listings =>
    m.Exclusive peers ∧ ∀ m', m.doMain peers = .ok m' → Exclusives m' listings

/-- What `get_peerid` should answer, and which peers run after the listing. -/
structure Tracks (m : PeerMap) (peers : List (String × PeerInfo)) : Prop where
  ids : ∀ peerid, (m.id2info.get? peerid).isSome = true ↔ ∃ e ∈ peers, e.1 = peerid
  found : ∀ addr, (∃ peerid peer, m.id2info.get? peerid = some peer ∧ peer.address = addr) →
    ∃ peerid peer, m.getPeerid addr = some peerid ∧ m.id2info.get? peerid = some peer ∧
      peer.address = addr
  missing : ∀ addr, (¬∃ peerid peer, m.id2info.get? peerid = some peer ∧ peer.address = addr) →
    m.getPeerid addr = none

theorem Consistent.tracks (h : m.Consistent)
    (hids : ∀ peerid, (m.id2info.get? peerid).isSome = true ↔ ∃ e ∈ peers, e.1 = peerid) :
    m.Tracks peers where
  ids := hids
  found := fun addr ⟨peerid, peer, hpeer, haddr⟩ =>
    ⟨peerid, peer, (h addr peerid).mpr ⟨peer, hpeer, haddr⟩, hpeer, haddr⟩
  missing := fun addr hnone => by
    refine Option.eq_none_iff_forall_ne_some.mpr fun peerid hsome => hnone ?_
    obtain ⟨peer, hpeer⟩ := (h addr peerid).mp hsome
    exact ⟨peerid, peer, hpeer⟩

/-- From any consistent map on. -/
theorem Consistent.refreshes : ∀ (listings : List (List (String × PeerInfo))) {m : PeerMap}
    {last : List (String × PeerInfo)}, m.Consistent → m.Tracks last → m.Exclusives listings →
    ∃ m', m.refreshes listings = .ok m' ∧ m'.Tracks (listings.getLastD last)
  | [], m, _, _, htracks, _ => ⟨m, rfl, htracks⟩
  | peers :: listings, m, last, h, _, hexcl => by
      obtain ⟨m₁, hm₁, hcons, hids⟩ := h.doMain hexcl.1
      obtain ⟨m₂, hm₂, htracks⟩ := Consistent.refreshes listings hcons (hcons.tracks hids)
        (hexcl.2 m₁ hm₁)
      refine ⟨m₂, by rw [PeerMap.refreshes, foldlM_cons, hm₁]; exact hm₂, ?_⟩
      rw [getLastD_cons]
      exact htracks

/-- **In every sequence of refreshes that pass no address on between peers that stay**, none raises,
the peers of the latest listing are running, and an address leads to a peer that runs there. -/
theorem refreshes_consistent (listings : List (List (String × PeerInfo)))
    (h : Exclusives {} listings) :
    ∃ m, refreshes {} listings = .ok m ∧ m.Tracks (listings.getLastD []) := by
  have hempty : Consistent {} := fun addr peerid => by simp
  exact hempty.refreshes listings (hempty.tracks (by simp)) h

/-- …here one peer that goes and another that comes in its place. -/
theorem refreshes_consistent_replaced :
    ∃ m, refreshes {} [[("p|0|1", { addr := "h" })], [("q|0|1", { addr := "h" })]] = .ok m ∧
      m.Tracks [("q|0|1", { addr := "h" })] :=
  refreshes_consistent _ ⟨⟨by decide +kernel, by decide +kernel⟩, fun m hm => by
    cases hm
    exact ⟨⟨by decide +kernel, by decide +kernel⟩, fun _ _ => trivial⟩⟩

/-- Two peers at one address raise when they go. -/
theorem refreshes_shared_raises :
    (refreshes {} [[("p|0|1", { addr := "h" }), ("q|0|1", { addr := "h" })], []]).toOption = none := by
  decide +kernel

end PeerMap

end LlumnixKv
