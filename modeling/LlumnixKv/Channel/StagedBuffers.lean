import LlumnixKv.Channel.StagedChannel
import LlumnixKv.Machinery.Dict

/-!
# Channel/StagedBuffers — the receive buffers of the staged server

    connection ──▸ StagedBufferGuard ──buffer_id──▸ StagedRecvBuffer ──rkey──▸ registered memory

A request for buffers replaces all those of its connection, under new ids; the hook of a closed
connection releases them.  An id is given once on a connection and an rkey once at all, so a connection
and an id name one buffer for good (`Tidy.eq_of_id`): it is there, or it was released.
-/

open Function List Machinery Machinery.Traced

namespace LlumnixKv

/-! ## The state -/

/-- `StagedRecvBuffer`. -/
structure StagedRecvBuffer where
  addr : ℕ
  rkey : ℕ
  size : ℕ
  bufferId : ℕ
  layerIdx : ℕ
  deriving DecidableEq, Repr

/-- `StagedPreallocRespEntry`: what the sender is told of a buffer. -/
def StagedRecvBuffer.entry (b : StagedRecvBuffer) : RemoteStagedBuffer :=
  ⟨b.addr, b.size, b.rkey, b.bufferId⟩

/-- `StagedBufferGuard`: the buffers of a connection. -/
structure StagedBufferGuard where
  nextBufferId : ℕ := 1
  buffers : List StagedRecvBuffer := []
  deriving DecidableEq, Repr

/-- `alloc_buffer_ids`. -/
def StagedBufferGuard.allocBufferIds (g : StagedBufferGuard) (count : ℕ) :
    Except Fault (List ℕ × StagedBufferGuard) :=
  if count = 0 then .ok ([], g)
  else if g.nextBufferId = 0 ∨ stagedImmBufferMask < g.nextBufferId ∨
      stagedImmBufferMask - g.nextBufferId < count - 1 then .error .overflow
  else .ok (List.range' g.nextBufferId count, { g with nextBufferId := g.nextBufferId + count })

/-- `find_buffer`. -/
def StagedBufferGuard.findBuffer (g : StagedBufferGuard) (bufferId : ℕ) : Option StagedRecvBuffer :=
  g.buffers.find? (·.bufferId = bufferId)

/-- `RDMAStagedServer`, with the memory it has registered. -/
structure StagedServerState where
  /-- `staged_guards_`, by connection -/
  guards : ℕ → Option StagedBufferGuard := fun _ => none
  /-- the connections whose closed hook has run -/
  closed : List ℕ := []
  /-- registered memory, by rkey -/
  regions : ℕ → Option InBuf := fun _ => none
  /-- every id ever given, with its connection -/
  issued : List (ℕ × ℕ) := []
  /-- every buffer ever handed out, with its connection -/
  handed : List (ℕ × StagedRecvBuffer) := []

namespace StagedServerState

/-! ## The actions -/

/-- The loop over the layers, from `idx` on, with the memory that is allocated for them; where there is no
more, the allocation fails. -/
def preallocLayers : ℕ → List ℕ → List ℕ → List (ℕ × InBuf) → Except Fault (List StagedRecvBuffer)
  | _, [], _, _ => .ok []
  | idx, size :: sizes, bufferId :: ids, mem :: mems =>
    if mem.2.len = size then do
      rtassert (bufferId ≤ stagedImmBufferMask)
      let rest ← preallocLayers (idx + 1) sizes ids mems
      return ⟨mem.2.base, mem.1, size, bufferId, idx⟩ :: rest
    else .error (.runtime "AllocBuffer")
  | _, _, _, _ => .error (.runtime "AllocBuffer")

variable (srv : StagedServerState) (conn : ℕ)

/-- `replace_buffers`, with the new memory registered and the old released. -/
def replaceBuffers (g : StagedBufferGuard) (bufs : List StagedRecvBuffer) (mems : List (ℕ × InBuf))
    : StagedServerState :=
  { srv with
    guards := Function.update srv.guards conn (some { g with buffers := bufs })
    regions := enroll (release srv.regions (g.buffers.map (·.rkey))) mems
    handed := srv.handed ++ bufs.map (conn, ·) }

/-- The ids of a request are given. -/
def issue (ids : List ℕ) (g : StagedBufferGuard) : StagedServerState :=
  { srv with
    guards := Function.update srv.guards conn (some g)
    issued := srv.issued ++ ids.map (conn, ·) }

/-- **`resp_staged_prealloc`**: the buffers of the response, if there is one. -/
def respStagedPrealloc (layerSizes : List ℕ) (mems : List (ℕ × InBuf)) :
    StagedServerState × Option (List StagedRecvBuffer) :=
  if layerSizes = [] ∨ stagedPreallocMaxLayers < layerSizes.length ∨ 0 ∈ layerSizes then (srv, none)
  else match ((srv.guards conn).getD {}).allocBufferIds layerSizes.length with
    | .error _ => (srv.issue conn [] ((srv.guards conn).getD {}), none)
    | .ok (ids, g) => match preallocLayers 0 layerSizes ids mems with
      | .error _ => (srv.issue conn ids g, none)
      | .ok bufs => ((srv.issue conn ids g).replaceBuffers conn g bufs mems, some bufs)

/-- `closedHook`. -/
def closedHook : StagedServerState :=
  { srv with
    guards := Function.update srv.guards conn none
    closed := conn :: srv.closed
    regions := release srv.regions (((srv.guards conn).getD {}).buffers.map (·.rkey)) }

/-- An RDMA write into registered memory. -/
def write (rkey : ℕ) (buf : InBuf) (addr : ℕ) (bytes : List UInt8) : StagedServerState :=
  { srv with
    regions := Function.update srv.regions rkey
      (some ⟨store buf.mem addr bytes, buf.base, buf.len, buf.user⟩) }

/-- The buffer an immediate value stands for, in `OnImmRecvCall`. -/
def resolve (conn immData : ℕ) : Option StagedRecvBuffer :=
  if decodeStagedImmData immData = 0 then none
  else (srv.guards conn).bind (·.findBuffer (decodeStagedImmData immData))

/-- The requests a handler replies to. -/
def replies (log : List RecvEvent) : List ℕ :=
  log.filterMap fun
    | .reply _ reqid => some reqid
    | _ => none

/-- …and the rest of it, with the record of the buffer it has found: the requests it replies to.  The
lock is released by then; `none` is a buffer that is released too. -/
def handleFound (ndebug : Bool) (cfg : CopyConfig) (reserve : Reserve) (info : StagedInfo)
    (srv : StagedServerState) (b : StagedRecvBuffer) : Option (List ℕ) :=
  (srv.regions b.rkey).map fun buf =>
    replies (StagedServer.handleKvCacheData ndebug cfg reserve info buf).log

/-- Memory under rkeys that no buffer has had. -/
def Fresh (mems : List (ℕ × InBuf)) : Prop :=
  (mems.map Prod.fst).Nodup ∧ ∀ mem ∈ mems, ∀ h ∈ srv.handed, mem.1 ≠ h.2.rkey

instance (srv : StagedServerState) (mems : List (ℕ × InBuf)) : Decidable (srv.Fresh mems) :=
  inferInstanceAs (Decidable (_ ∧ _))

/-! ## What they keep -/

/-- **What always holds of the buffers.** -/
structure Tidy (srv : StagedServerState) : Prop where
  issued_lt : ∀ c i, (c, i) ∈ srv.issued →
    c ∈ srv.closed ∨ ∃ g, srv.guards c = some g ∧ i < g.nextBufferId
  issued_nodup : srv.issued.Nodup
  handed_issued : ∀ c b, (c, b) ∈ srv.handed → (c, b.bufferId) ∈ srv.issued
  handed_ids : (srv.handed.map fun h => (h.1, h.2.bufferId)).Nodup
  handed_keys : (srv.handed.map fun h => h.2.rkey).Nodup
  guard_open : ∀ c g, srv.guards c = some g → c ∉ srv.closed
  guard_handed : ∀ c g, srv.guards c = some g → ∀ b ∈ g.buffers, (c, b) ∈ srv.handed
  guard_region : ∀ c g, srv.guards c = some g → ∀ b ∈ g.buffers, ∃ buf, srv.regions b.rkey = some buf
  region_handed : ∀ c b buf, (c, b) ∈ srv.handed → srv.regions b.rkey = some buf →
    buf.base = b.addr ∧ buf.len = b.size

/-- What an action on `conn` leaves as it was: what was handed out stays so, and its memory is as it was
or released. -/
structure Grows (srv srv' : StagedServerState) (conn : ℕ) : Prop where
  handed : ∀ h ∈ srv.handed, h ∈ srv'.handed
  issued : ∀ p ∈ srv'.issued, p ∈ srv.issued ∨ p.1 = conn
  region : ∀ h ∈ srv.handed, ∀ buf, srv'.regions h.2.rkey = some buf →
    srv.regions h.2.rkey = some buf

theorem Grows.refl : Grows srv srv conn :=
  ⟨fun _ h => h, fun _ h => .inl h, fun _ _ _ h => h⟩

theorem Grows.trans {srv₁ srv₂ srv₃ : StagedServerState} {conn : ℕ} (h : Grows srv₁ srv₂ conn)
    (h' : Grows srv₂ srv₃ conn) : Grows srv₁ srv₃ conn where
  handed x hx := h'.handed x (h.handed x hx)
  issued p hp := (h'.issued p hp).elim (h.issued p) .inr
  region x hx buf hbuf := h.region x hx buf (h'.region x (h.handed x hx) buf hbuf)

section Keeps

variable {srv : StagedServerState} {conn : ℕ} {mems : List (ℕ × InBuf)} {g : StagedBufferGuard}
  {b : StagedRecvBuffer}

/-- **A connection and an id name one buffer**, … -/
theorem Tidy.eq_of_id (h : srv.Tidy) {c : ℕ} {b b' : StagedRecvBuffer} (hb : (c, b) ∈ srv.handed)
    (hb' : (c, b') ∈ srv.handed) (hid : b.bufferId = b'.bufferId) : b = b' := by
  have hpair : (c, b) = (c, b') :=
    inj_on_of_nodup_map h.handed_ids hb hb' (by simp only [hid])
  exact (Prod.mk.inj hpair).2

/-- … and so does an rkey. -/
theorem Tidy.eq_of_key (h : srv.Tidy) {x y : ℕ × StagedRecvBuffer} (hx : x ∈ srv.handed)
    (hy : y ∈ srv.handed) (hkey : x.2.rkey = y.2.rkey) : x = y :=
  inj_on_of_nodup_map h.handed_keys hx hy hkey

/-- The guard of a connection, if it has none an empty one. -/
theorem exists_guard_of_mem (hb : b ∈ ((srv.guards conn).getD {}).buffers) :
    ∃ g, srv.guards conn = some g ∧ b ∈ g.buffers := by
  cases hg : srv.guards conn with
  | none =>
    rw [hg] at hb
    cases hb
  | some g =>
    rw [hg] at hb
    exact ⟨g, rfl, hb⟩

/-- The ids of a request are above those given before. -/
theorem allocBufferIds_eq_ok {g g' : StagedBufferGuard} {count : ℕ} {ids : List ℕ}
    (h : g.allocBufferIds count = .ok (ids, g')) :
    ids = List.range' g.nextBufferId count ∧ g'.nextBufferId = g.nextBufferId + count ∧
      g'.buffers = g.buffers := by
  unfold StagedBufferGuard.allocBufferIds at h
  split at h
  · next hzero =>
    obtain ⟨rfl, rfl⟩ := Prod.mk.inj (Except.ok.inj h)
    rw [hzero]
    exact ⟨rfl, rfl, rfl⟩
  split at h
  · cases h
  · obtain ⟨rfl, rfl⟩ := Prod.mk.inj (Except.ok.inj h)
    exact ⟨rfl, rfl, rfl⟩

theorem Tidy.lt_nextBufferId (h : srv.Tidy) (hopen : conn ∉ srv.closed) {i : ℕ}
    (hi : (conn, i) ∈ srv.issued) : i < ((srv.guards conn).getD {}).nextBufferId := by
  obtain ⟨g, hg, hlt⟩ := (h.issued_lt conn i hi).resolve_left hopen
  rw [hg]
  exact hlt

/-- **Giving ids keeps the buffers tidy.** -/
theorem Tidy.issue (h : srv.Tidy) (hopen : conn ∉ srv.closed) (count : ℕ)
    (hnext : g.nextBufferId = ((srv.guards conn).getD {}).nextBufferId + count)
    (hbuffers : g.buffers = ((srv.guards conn).getD {}).buffers) :
    (srv.issue conn (List.range' ((srv.guards conn).getD {}).nextBufferId count) g).Tidy := by
  refine ⟨fun c i hi => ?_, ?_, fun c b hb => mem_append_left _ (h.handed_issued c b hb),
    h.handed_ids, h.handed_keys, fun c g' hg' => ?_, fun c g' hg' b hb => ?_,
    fun c g' hg' b hb => ?_, h.region_handed⟩
  · by_cases hc : c = conn
    · subst hc
      refine .inr ⟨g, update_self .., ?_⟩
      rw [hnext]
      rcases mem_append.mp hi with hi | hi
      · have hlt := h.lt_nextBufferId hopen hi
        omega
      · obtain ⟨j, hj, hpair⟩ := mem_map.mp hi
        obtain rfl : j = i := (Prod.mk.inj hpair).2
        rw [mem_range'_1] at hj
        exact hj.2
    · rcases mem_append.mp hi with hi | hi
      · refine (h.issued_lt c i hi).imp_right fun ⟨g', hg', hlt⟩ => ⟨g', ?_, hlt⟩
        exact (update_of_ne hc ..).trans hg'
      · obtain ⟨j, -, hpair⟩ := mem_map.mp hi
        exact absurd (Prod.mk.inj hpair).1.symm hc
  · refine nodup_append'.mpr ⟨h.issued_nodup, ?_, fun p hp hp' => ?_⟩
    · exact List.Nodup.map (fun i j hij => (Prod.mk.inj hij).2) nodup_range'
    · obtain ⟨j, hj, rfl⟩ := mem_map.mp hp'
      have hlt := h.lt_nextBufferId hopen hp
      rw [mem_range'_1] at hj
      omega
  · rcases of_update_eq_some hg' with ⟨rfl, -⟩ | ⟨-, hg'⟩
    · exact hopen
    · exact h.guard_open c g' hg'
  · rcases of_update_eq_some hg' with ⟨rfl, hsame⟩ | ⟨-, hg'⟩
    · cases hsame
      obtain ⟨g₀, hg₀, hb⟩ := exists_guard_of_mem (hbuffers ▸ hb)
      exact h.guard_handed c g₀ hg₀ b hb
    · exact h.guard_handed c g' hg' b hb
  · rcases of_update_eq_some hg' with ⟨rfl, hsame⟩ | ⟨-, hg'⟩
    · cases hsame
      obtain ⟨g₀, hg₀, hb⟩ := exists_guard_of_mem (hbuffers ▸ hb)
      exact h.guard_region c g₀ hg₀ b hb
    · exact h.guard_region c g' hg' b hb

theorem grows_issue (srv : StagedServerState) (conn : ℕ) (ids : List ℕ) (g : StagedBufferGuard) :
    Grows srv (srv.issue conn ids g) conn where
  handed _ h := h
  issued _ hp := (mem_append.mp hp).imp_right fun hp =>
    let ⟨_, _, heq⟩ := mem_map.mp hp
    heq ▸ rfl
  region _ _ _ h := h

/-- Each buffer has the memory that was allocated for it. -/
theorem preallocLayers_eq_ok : ∀ {idx : ℕ} {sizes ids : List ℕ} {mems : List (ℕ × InBuf)}
    {bufs : List StagedRecvBuffer}, preallocLayers idx sizes ids mems = .ok bufs →
    bufs.map (·.size) = sizes ∧ (bufs.map (·.bufferId)).Sublist ids ∧
      (bufs.map (·.rkey)).Sublist (mems.map Prod.fst) ∧
      ∀ b ∈ bufs, b.bufferId ≤ stagedImmBufferMask ∧
        ∃ mem ∈ mems, mem.1 = b.rkey ∧ mem.2.base = b.addr ∧ mem.2.len = b.size
  | _, [], ids, mems, bufs, h => by
      cases h
      exact ⟨rfl, nil_sublist _, nil_sublist _, fun b hb => absurd hb not_mem_nil⟩
  | _, _ :: _, [], _, _, h => nomatch h
  | _, _ :: _, _ :: _, [], _, h => nomatch h
  | idx, size :: sizes, bufferId :: ids, mem :: mems, bufs, h => by
      rw [preallocLayers] at h
      split at h
      · next hlen =>
        obtain ⟨_, hid, h⟩ := bind_eq_ok.mp h
        obtain ⟨rest, hrest, h⟩ := bind_eq_ok.mp h
        cases h
        obtain ⟨hsizes, hids, hkeys, hall⟩ := preallocLayers_eq_ok hrest
        have hmask : bufferId ≤ stagedImmBufferMask := by
          by_contra hnot
          rw [rtassert, if_neg hnot] at hid
          cases hid
        refine ⟨congrArg (size :: ·) hsizes, hids.cons_cons _, hkeys.cons_cons _, fun b hb => ?_⟩
        rcases mem_cons.mp hb with rfl | hb
        · exact ⟨hmask, mem, mem_cons_self, rfl, rfl, hlen⟩
        · obtain ⟨hle, mem', hmem', hrest⟩ := hall b hb
          exact ⟨hle, mem', mem_cons_of_mem _ hmem', hrest⟩
      · cases h

/-- **Replacing the buffers of a connection keeps them tidy.** -/
theorem Tidy.replaceBuffers (h : srv.Tidy) (hg : srv.guards conn = some g)
    {bufs : List StagedRecvBuffer} (hfresh : srv.Fresh mems)
    (hissued : ∀ b ∈ bufs, (conn, b.bufferId) ∈ srv.issued)
    (hnew : ∀ b ∈ bufs, ∀ b', (conn, b') ∈ srv.handed → b'.bufferId ≠ b.bufferId)
    (hids : (bufs.map (·.bufferId)).Nodup) (hkeys : (bufs.map (·.rkey)).Nodup)
    (hmems : ∀ b ∈ bufs, ∃ mem ∈ mems, mem.1 = b.rkey ∧ mem.2.base = b.addr ∧ mem.2.len = b.size) :
    (srv.replaceBuffers conn g bufs mems).Tidy ∧
      Grows srv (srv.replaceBuffers conn g bufs mems) conn := by
  have hold (x : ℕ × StagedRecvBuffer) (hx : x ∈ srv.handed) :
      enroll (release srv.regions (g.buffers.map (·.rkey))) mems x.2.rkey =
        release srv.regions (g.buffers.map (·.rkey)) x.2.rkey :=
    enroll_of_not_mem fun mem hmem => hfresh.2 mem hmem x hx
  have hregion (b : StagedRecvBuffer) (hb : b ∈ bufs) : ∃ buf,
      enroll (release srv.regions (g.buffers.map (·.rkey))) mems b.rkey = some buf ∧
        buf.base = b.addr ∧ buf.len = b.size := by
    obtain ⟨mem, hmem, hkey, haddr, hlen⟩ := hmems b hb
    exact ⟨mem.2, hkey ▸ enroll_of_mem hfresh.1 hmem, haddr, hlen⟩
  have hkept (x : ℕ × StagedRecvBuffer) (hx : x ∈ srv.handed) (buf : InBuf)
      (hbuf : (srv.replaceBuffers conn g bufs mems).regions x.2.rkey = some buf) :
      srv.regions x.2.rkey = some buf := of_release_eq_some ((hold x hx).symm.trans hbuf)
  refine ⟨⟨fun c i hi => ?_, h.issued_nodup, fun c b hb => ?_, ?_, ?_, fun c g' hg' => ?_,
    fun c g' hg' b hb => ?_, fun c g' hg' b hb => ?_, fun c b buf hb hbuf => ?_⟩,
    fun x hx => mem_append_left _ hx, fun p hp => .inl hp, hkept⟩
  · refine (h.issued_lt c i hi).imp_right fun ⟨g', hg', hlt⟩ => ?_
    by_cases hc : c = conn
    · subst hc
      obtain rfl : g = g' := Option.some.inj (hg.symm.trans hg')
      exact ⟨_, update_self .., hlt⟩
    · exact ⟨g', (update_of_ne hc ..).trans hg', hlt⟩
  · rcases mem_append.mp hb with hb | hb
    · exact h.handed_issued c b hb
    · obtain ⟨b', hb', hpair⟩ := mem_map.mp hb
      obtain ⟨rfl, rfl⟩ := Prod.mk.inj hpair
      exact hissued b' hb'
  · change ((srv.handed ++ bufs.map (conn, ·)).map fun h => (h.1, h.2.bufferId)).Nodup
    rw [map_append, map_map]
    refine nodup_append'.mpr ⟨h.handed_ids, ?_, fun p hp hp' => ?_⟩
    · have hmap := List.Nodup.map (fun i j hij => (Prod.mk.inj hij).2 :
        Function.Injective fun i : ℕ => (conn, i)) hids
      rwa [map_map] at hmap
    · obtain ⟨b, hb, rfl⟩ := mem_map.mp hp'
      obtain ⟨⟨c, b'⟩, hb', hpair⟩ := mem_map.mp hp
      obtain ⟨rfl, hid⟩ := Prod.mk.inj hpair
      exact hnew b hb b' hb' hid
  · change ((srv.handed ++ bufs.map (conn, ·)).map fun h => h.2.rkey).Nodup
    rw [map_append, map_map]
    refine nodup_append'.mpr ⟨h.handed_keys, hkeys, fun key hkey hkey' => ?_⟩
    obtain ⟨b, hb, rfl⟩ := mem_map.mp hkey'
    obtain ⟨x, hx, heq⟩ := mem_map.mp hkey
    obtain ⟨mem, hmem, hrkey, -⟩ := hmems b hb
    exact hfresh.2 mem hmem x hx (hrkey.trans heq.symm)
  · rcases of_update_eq_some hg' with ⟨rfl, -⟩ | ⟨-, hg'⟩
    · exact h.guard_open c g hg
    · exact h.guard_open c g' hg'
  · rcases of_update_eq_some hg' with ⟨rfl, hsame⟩ | ⟨-, hg'⟩
    · cases hsame
      exact mem_append_right _ (mem_map_of_mem hb)
    · exact mem_append_left _ (h.guard_handed c g' hg' b hb)
  · rcases of_update_eq_some hg' with ⟨rfl, hsame⟩ | ⟨hc, hg'⟩
    · cases hsame
      obtain ⟨buf, hbuf, -⟩ := hregion b hb
      exact ⟨buf, hbuf⟩
    · have hb' := h.guard_handed c g' hg' b hb
      obtain ⟨buf, hbuf⟩ := h.guard_region c g' hg' b hb
      -- a buffer of another connection is not among those released
      have hnot : b.rkey ∉ g.buffers.map (·.rkey) := by
        intro hmem
        obtain ⟨b₀, hb₀, hkey⟩ := mem_map.mp hmem
        exact hc (Prod.mk.inj (h.eq_of_key hb' (h.guard_handed conn g hg b₀ hb₀) hkey.symm)).1
      refine ⟨buf, (hold (c, b) hb').trans ?_⟩
      exact (release_of_not_mem hnot).trans hbuf
  · rcases mem_append.mp hb with hb | hb
    · exact h.region_handed c b buf hb (hkept (c, b) hb buf hbuf)
    · obtain ⟨b', hb', hpair⟩ := mem_map.mp hb
      obtain ⟨rfl, rfl⟩ := Prod.mk.inj hpair
      obtain ⟨buf', hbuf', hfit⟩ := hregion b' hb'
      obtain rfl : buf' = buf := Option.some.inj (hbuf'.symm.trans hbuf)
      exact hfit

/-- **A request keeps the buffers tidy**, and its response names buffers of the sizes asked for. -/
theorem respStagedPrealloc_spec (h : srv.Tidy) (hopen : conn ∉ srv.closed) (hfresh : srv.Fresh mems)
    {sizes : List ℕ} {srv' : StagedServerState} {answer : Option (List StagedRecvBuffer)}
    (hresp : srv.respStagedPrealloc conn sizes mems = (srv', answer)) :
    srv'.Tidy ∧ Grows srv srv' conn ∧ ∀ bufs, answer = some bufs →
      bufs.map (·.size) = sizes ∧ sizes.length ≤ stagedPreallocMaxLayers ∧
      (bufs.map (·.rkey)).Nodup ∧
      ∀ b ∈ bufs, (conn, b) ∈ srv'.handed ∧ ∀ x ∈ srv.handed, b.rkey ≠ x.2.rkey := by
  unfold respStagedPrealloc at hresp
  split at hresp
  · cases hresp
    exact ⟨h, .refl .., nofun⟩
  next hvalid =>
  split at hresp
  · cases hresp
    have hissue := h.issue hopen 0 rfl rfl
    exact ⟨hissue, grows_issue .., nofun⟩
  next ids g halloc =>
  obtain ⟨rfl, hnext, hbuffers⟩ := allocBufferIds_eq_ok halloc
  have hissue := h.issue hopen sizes.length hnext hbuffers
  have hgrows := grows_issue srv conn
    (List.range' ((srv.guards conn).getD {}).nextBufferId sizes.length) g
  split at hresp
  · cases hresp
    exact ⟨hissue, hgrows, nofun⟩
  · next bufs hbufs =>
    cases hresp
    obtain ⟨hsizes, hids, hkeys, hall⟩ := preallocLayers_eq_ok hbufs
    have hid (b : StagedRecvBuffer) (hb : b ∈ bufs) : b.bufferId ∈
        List.range' ((srv.guards conn).getD {}).nextBufferId sizes.length :=
      hids.subset (mem_map_of_mem hb)
    have hnew (b : StagedRecvBuffer) (hb : b ∈ bufs) (b' : StagedRecvBuffer)
        (hb' : (conn, b') ∈ srv.handed) : b'.bufferId ≠ b.bufferId := by
      have hlt := h.lt_nextBufferId hopen (h.handed_issued conn b' hb')
      have hge := (mem_range'_1.mp (hid b hb)).1
      omega
    obtain ⟨htidy, hmore⟩ := hissue.replaceBuffers (update_self ..) hfresh
      (fun b hb => mem_append_right _ (mem_map_of_mem (hid b hb))) hnew
      (hids.nodup nodup_range') (hkeys.nodup hfresh.1) fun b hb => (hall b hb).2
    refine ⟨htidy, hgrows.trans hmore, fun bufs' hbufs' => ?_⟩
    cases hbufs'
    refine ⟨hsizes, Nat.not_lt.mp fun hlt => hvalid (.inr (.inl hlt)), hkeys.nodup hfresh.1,
      fun b hb => ⟨mem_append_right _ (mem_map_of_mem hb), fun x hx => ?_⟩⟩
    obtain ⟨mem, hmem, hkey, -⟩ := (hall b hb).2
    exact hkey ▸ hfresh.2 mem hmem x hx

/-- **Closing a connection keeps the buffers tidy.** -/
theorem Tidy.closedHook (h : srv.Tidy) (conn : ℕ) :
    (srv.closedHook conn).Tidy ∧ Grows srv (srv.closedHook conn) conn := by
  refine ⟨⟨fun c i hi => ?_, h.issued_nodup, h.handed_issued, h.handed_ids, h.handed_keys,
    fun c g hg => ?_, fun c g hg b hb => ?_, fun c g hg b hb => ?_,
    fun c b buf hb hbuf => h.region_handed c b buf hb (of_release_eq_some hbuf)⟩,
    fun x hx => hx, fun p hp => .inl hp, fun x _ buf hbuf => of_release_eq_some hbuf⟩
  · by_cases hc : c = conn
    · exact .inl (hc ▸ mem_cons_self)
    · refine (h.issued_lt c i hi).imp (mem_cons_of_mem _) fun ⟨g, hg, hlt⟩ => ⟨g, ?_, hlt⟩
      exact (update_of_ne hc ..).trans hg
  · rcases of_update_eq_some hg with ⟨-, hnone⟩ | ⟨hc, hg⟩
    · cases hnone
    · exact not_mem_cons_of_ne_of_not_mem hc (h.guard_open c g hg)
  · rcases of_update_eq_some hg with ⟨-, hnone⟩ | ⟨-, hg⟩
    · cases hnone
    · exact h.guard_handed c g hg b hb
  · rcases of_update_eq_some hg with ⟨-, hnone⟩ | ⟨hc, hg⟩
    · cases hnone
    · have hb' := h.guard_handed c g hg b hb
      obtain ⟨buf, hbuf⟩ := h.guard_region c g hg b hb
      have hnot : b.rkey ∉ ((srv.guards conn).getD {}).buffers.map (·.rkey) := by
        intro hmem
        obtain ⟨b₀, hb₀, hkey⟩ := mem_map.mp hmem
        obtain ⟨g₀, hg₀, hb₀⟩ := exists_guard_of_mem hb₀
        exact hc (Prod.mk.inj (h.eq_of_key hb' (h.guard_handed conn g₀ hg₀ b₀ hb₀) hkey.symm)).1
      exact ⟨buf, (release_of_not_mem hnot).trans hbuf⟩

/-- **A write keeps the buffers tidy.** -/
theorem Tidy.write (h : srv.Tidy) {rkey : ℕ} {buf : InBuf} (hbuf : srv.regions rkey = some buf)
    (addr : ℕ) (bytes : List UInt8) : (srv.write rkey buf addr bytes).Tidy := by
  refine ⟨h.issued_lt, h.issued_nodup, h.handed_issued, h.handed_ids, h.handed_keys, h.guard_open,
    h.guard_handed, fun c g hg b hb => ?_, fun c b buf' hb hbuf' => ?_⟩
  · obtain ⟨buf', hbuf'⟩ := h.guard_region c g hg b hb
    by_cases hkey : b.rkey = rkey
    · subst hkey
      exact ⟨_, update_self ..⟩
    · exact ⟨buf', (update_of_ne hkey ..).trans hbuf'⟩
  · rcases of_update_eq_some hbuf' with ⟨hkey, hsame⟩ | ⟨-, hbuf'⟩
    · cases hsame
      exact h.region_handed c b buf hb (hkey ▸ hbuf)
    · exact h.region_handed c b buf' hb hbuf'

/-- What an immediate value resolves to was handed out on the connection, under that id. -/
theorem Tidy.of_resolve (h : srv.Tidy) {immData : ℕ} (hb : srv.resolve conn immData = some b) :
    (conn, b) ∈ srv.handed ∧ b.bufferId = decodeStagedImmData immData ∧
      ∃ buf, srv.regions b.rkey = some buf ∧ buf.base = b.addr ∧ buf.len = b.size := by
  unfold resolve at hb
  split at hb
  · cases hb
  · obtain ⟨g, hg, hfind⟩ := Option.bind_eq_some_iff.mp hb
    rw [StagedBufferGuard.findBuffer] at hfind
    have hmem : b ∈ g.buffers := mem_of_find?_eq_some hfind
    have hid : b.bufferId = decodeStagedImmData immData := by
      have hfound := find?_some hfind
      exact of_decide_eq_true hfound
    have hhanded := h.guard_handed conn g hg b hmem
    obtain ⟨buf, hbuf⟩ := h.guard_region conn g hg b hmem
    exact ⟨hhanded, hid, buf, hbuf, h.region_handed conn b buf hhanded hbuf⟩

end Keeps

end StagedServerState

end LlumnixKv
