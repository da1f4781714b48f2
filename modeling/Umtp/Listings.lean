import Umtp.FileReads

namespace Umtp

open Lib Lib.Prog Handles

-- The children that the search has not found yet.
def Handles.FsHandlesDb.unfound (db : FsHandlesDb) : List EntryPtr :=
  db.searchEntry.filter db.isSearchedChild

-- The live children of a folder, in the order of the list.
def MtpCtx.childrenOf (ctx : MtpCtx) (parent storageId : Nat) : List EntryPtr :=
  ctx.db.entryList.filter fun p =>
    !(ctx.entry p).isDeleted && (ctx.entry p).parent == parent &&
      (ctx.entry p).storageId == storageId && (ctx.entry p).handle != (ctx.entry p).parent

theorem filter_dropWhile_not {α : Type} (wanted : α → Bool) (l : List α) :
    (l.dropWhile fun x => !wanted x).filter wanted = l.filter wanted := by
  induction l with
  | nil => rfl
  | cons x l ih =>
      rw [List.dropWhile_cons]
      by_cases hx : wanted x = true
      · simp [hx]
      · rw [if_pos (by simpa using hx), ih, List.filter_cons_of_neg hx]

-- The search finds the first of them and goes on behind it.
theorem Handles.FsHandlesDb.getNextChildHandle_unfound (db : FsHandlesDb) :
    db.getNextChildHandle.1 = db.unfound.head? ∧
      db.getNextChildHandle.2.unfound = db.unfound.tail := by
  have hsame : db.getNextChildHandle.2.isSearchedChild = db.isSearchedChild := by
    rw [getNextChildHandle_snd]
    rfl
  have hdrop := filter_dropWhile_not db.isSearchedChild db.searchEntry
  have hhead := List.head?_dropWhile_not (fun p => !db.isSearchedChild p) db.searchEntry
  rw [unfound, unfound, hsame, ← hdrop]
  rw [getNextChildHandle]
  cases hleft : db.searchEntry.dropWhile fun p => !db.isSearchedChild p with
  | nil => exact ⟨rfl, rfl⟩
  | cons p next =>
      have hp : db.isSearchedChild p = true := by simpa [hleft] using hhead
      dsimp only
      rw [List.filter_cons_of_pos hp]
      exact ⟨rfl, rfl⟩

section Scanning

variable {σ α : Type} {os : Os σ} {w : World σ}

-- The commands a folder is scanned and watched with.
structure ScansFolders (S : Cmd → Prop) : Prop extends Identifies S where
  entryMemory : S (.act .entryMemory)
  allocEntry : ∀ mem fileinfo parent storageId, S (.db (.allocEntry mem fileinfo parent storageId))
  flagDeleted : ∀ p, S (.flagDeleted .scanAndAddFolder p)
  setSize : ∀ p size, S (.db (.setSize p size))
  setWatchDescriptor : ∀ p wd, S (.db (.setWatchDescriptor p wd))
  initSearchHandle : ∀ parent storageId, S (.db (.initSearchHandle parent storageId))
  getNextChildHandle : S (.db .getNextChildHandle)
  addWatch : ∀ path, S (.act (.inotifyAddWatch path))
  rmWatch : ∀ wd, S (.act (.inotifyRmWatch wd))

theorem watchFolder_uses {S : Cmd → Prop} (hget : S .getCtx)
    (hadd : ∀ path, S (.act (.inotifyAddWatch path)))
    (hset : ∀ p wd, S (.db (.setWatchDescriptor p wd))) {entry : Option EntryPtr}
    {fullPath : CString} : Uses AnyAnswer S (watchFolder entry fullPath) := by
  cases entry with
  | none => exact uses_pure _
  | some p =>
      refine uses_bind (uses_cmd hget) fun ctx => ?_
      split
      · refine uses_bind (uses_bind (uses_cmd hget) fun ctx => ?_) fun wd => uses_db_ (hset _ _)
        split
        · exact uses_act_of (hadd _)
        · exact uses_pure _
      · exact uses_pure _

namespace ScansFolders

variable {S : Cmd → Prop} (h : ScansFolders S)
include h

theorem addEntry (fileinfo : FileFoundInfo) (parent storageId : Nat) :
    Uses AnyAnswer S (addEntry fileinfo parent storageId) := by
  refine h.getCtx_bind fun ctx => ?_
  split
  · exact uses_pure _
  · exact uses_bind (uses_act_of h.entryMemory) fun mem => uses_cmd (h.allocEntry _ _ _ _)

theorem fsEntryStat (path : CString) (fileinfo : FileFoundInfo) :
    Uses AnyAnswer S (fsEntryStat path fileinfo) := by
  refine uses_bind (uses_cmd (h.query _)) fun stat => ?_
  cases stat <;> exact uses_pure _

theorem addFolderEntries (base : CString) (parent storageId : Nat) (names : List CString) :
    Uses AnyAnswer S (addFolderEntries base parent storageId names) := by
  induction names with
  | nil => exact uses_pure _
  | cons name names ih =>
      have hadd := h.addEntry
      have hrest : ∀ found : Bool × FileFoundInfo, Uses AnyAnswer S (do
          if found.1 then
            let ctx ← M.getCtx
            if isListedName ctx.usbCfg.showHiddenFiles found.2.filename then
              let _ ← Umtp.addEntry found.2 parent storageId
            let _ ← Umtp.addFolderEntries base parent storageId names
            return true
          else
            Umtp.addFolderEntries base parent storageId names) := by
        intro found
        split
        · refine h.getCtx_bind fun ctx => ?_
          have hlast : ∀ _ : Unit, Uses AnyAnswer S (do
              let _ ← Umtp.addFolderEntries base parent storageId names
              return true) := fun _ => uses_bind ih fun _ => uses_pure _
          dsimp only
          split
          · exact uses_bind (hadd _ _ _) fun _ => hlast ()
          · exact hlast ()
        · exact ih
      refine uses_bind (uses_act_of h.malloc) fun memory => ?_
      dsimp only
      split
      · exact uses_bind (h.fsEntryStat _ _) hrest
      · exact uses_bind (uses_pure _) hrest

theorem dropWatch (p : EntryPtr) : Uses AnyAnswer S (dropWatch p) := by
  refine h.getCtx_bind fun ctx => ?_
  split
  · refine uses_bind ?_ fun _ => uses_db_ (h.setWatchDescriptor _ _)
    refine h.getCtx_bind fun ctx => ?_
    split
    · exact uses_act_of (h.rmWatch _)
    · exact uses_pure _
  · exact uses_pure _

theorem refreshChild (p : EntryPtr) : Uses AnyAnswer S (refreshChild p) := by
  refine uses_bind (h.entryPath p) fun path => ?_
  cases path with
  | none => exact uses_pure _
  | some path =>
      refine uses_bind (uses_cmd (h.query _)) fun stat => ?_
      cases stat with
      | some stat => exact uses_db_ (h.setSize _ _)
      | none => exact uses_bind (uses_cmd (h.flagDeleted _)) fun _ => h.dropWatch p

theorem refreshChildren (fuel : Nat) : Uses AnyAnswer S (refreshChildren fuel) := by
  induction fuel with
  | zero => exact uses_pure _
  | succ fuel ih =>
      refine uses_bind (uses_cmd h.getNextChildHandle) fun next => ?_
      cases next with
      | some p => exact uses_bind (h.refreshChild p) fun _ => ih
      | none => exact uses_pure _

theorem scanAndAddFolder (base : CString) (parent storageId : Nat) :
    Uses AnyAnswer S (scanAndAddFolder base parent storageId) := by
  have hrest : ∀ dir : Bool, Uses AnyAnswer S (do
      M.db_ (.initSearchHandle parent storageId)
      let fuel ← childFuel
      Umtp.refreshChildren fuel
      return dir) := fun dir =>
    uses_bind (uses_db_ (h.initSearchHandle _ _)) fun _ =>
      uses_bind (h.getCtx_bind fun _ => uses_pure _) fun fuel =>
        uses_bind (h.refreshChildren fuel) fun _ => uses_pure _
  refine uses_bind (uses_cmd (h.query _)) fun names => ?_
  cases names with
  | some names => exact uses_bind (h.addFolderEntries _ _ _ names) hrest
  | none => exact uses_bind (uses_pure _) hrest

theorem countChildren (fuel count : Nat) : Uses AnyAnswer S (countChildren fuel count) := by
  induction fuel generalizing count with
  | zero => exact uses_pure _
  | succ fuel ih =>
      refine uses_bind (uses_cmd h.getNextChildHandle) fun next => ?_
      cases next with
      | some p => exact ih _
      | none => exact uses_pure _

theorem watchFolder (entry : Option EntryPtr) (fullPath : CString) :
    Uses AnyAnswer S (watchFolder entry fullPath) :=
  watchFolder_uses h.getCtx h.addWatch h.setWatchDescriptor

theorem listFolder (entry : Option EntryPtr) (fullPath : CString) (parentHandle storageid : Nat) :
    Uses AnyAnswer S (listFolder entry fullPath parentHandle storageid) := by
  have hrest : ∀ scanned : Bool, Uses AnyAnswer S (do
      restoreGiduid
      if scanned then
        M.db_ (.initSearchHandle parentHandle storageid)
        let fuel ← childFuel
        let nbOfHandles ← Umtp.countChildren fuel 0
        M.db_ (.initSearchHandle parentHandle storageid)
        Umtp.watchFolder entry fullPath
        return some nbOfHandles
      else
        return none) := by
    intro scanned
    refine uses_bind h.restoreGiduid fun _ => ?_
    split
    · exact uses_bind (uses_db_ (h.initSearchHandle _ _)) fun _ =>
        uses_bind (h.getCtx_bind fun _ => uses_pure _) fun fuel =>
          uses_bind (h.countChildren fuel 0) fun _ =>
            uses_bind (uses_db_ (h.initSearchHandle _ _)) fun _ =>
              uses_bind (h.watchFolder _ _) fun _ => uses_pure _
    · exact uses_pure _
  refine uses_bind (h.setStorageGiduid _) fun set => ?_
  split
  · exact uses_bind (h.scanAndAddFolder _ _ _) hrest
  · exact uses_bind (uses_pure _) hrest

end ScansFolders

-- What a scan leaves alone: the write buffer and the sizes.
structure SameBuffers (ctx ctx' : MtpCtx) : Prop where
  wrbuffer : ctx'.wrbuffer = ctx.wrbuffer
  room : ctx'.usbWrBufferMaxSize = ctx.usbWrBufferMaxSize
  packet : ctx'.maxPacketSize = ctx.maxPacketSize

-- Commands on the database and on files.
def Cmd.IsQuiet : Cmd → Prop
  | getCtx | query _ | db _ | flagDeleted _ _ | act .malloc | act .entryMemory
  | act (.setfsuid _) | act (.setfsgid _) | act (.inotifyAddWatch _)
  | act (.inotifyRmWatch _) => True
  | _ => False

theorem isQuiet_scansFolders : ScansFolders Cmd.IsQuiet where
  getCtx := trivial
  query _ := trivial
  malloc := trivial
  setfsuid _ := trivial
  setfsgid _ := trivial
  entryMemory := trivial
  allocEntry _ _ _ _ := trivial
  flagDeleted _ := trivial
  setSize _ _ := trivial
  setWatchDescriptor _ _ := trivial
  initSearchHandle _ _ := trivial
  getNextChildHandle := trivial
  addWatch _ := trivial
  rmWatch _ := trivial

theorem stream_quiet {c : Cmd} (hc : c.IsQuiet) (s : World σ × Stream) :
    SameBuffers s.1.ctx (stream os c s).2.1.ctx ∧ (stream os c s).2.2 = s.2 := by
  cases c with
  | act a => cases a <;> first | exact hc.elim | exact ⟨⟨rfl, rfl, rfl⟩, rfl⟩
  | _ => first | exact hc.elim | exact ⟨⟨rfl, rfl, rfl⟩, rfl⟩

theorem exec_quiet {prog : M α} (hp : Uses AnyAnswer Cmd.IsQuiet prog) (s : World σ × Stream) :
    SameBuffers s.1.ctx (exec (stream os) prog s).2.1.ctx ∧
      (exec (stream os) prog s).2.2 = s.2 := by
  have hv : Valid (stream os) (fun _ _ => True)
      (fun s' => SameBuffers s.1.ctx s'.1.ctx ∧ s'.2 = s.2) prog
      fun _ s' => True ∧ SameBuffers s.1.ctx s'.1.ctx ∧ s'.2 = s.2 := by
    refine valid_of_runs hp fun s' c hs' hc => ⟨trivial, trivial, ?_⟩
    obtain ⟨hsame, hflow⟩ := @stream_quiet _ os _ hc s'
    exact ⟨⟨hsame.wrbuffer.trans hs'.1.wrbuffer, hsame.room.trans hs'.1.room,
      hsame.packet.trans hs'.1.packet⟩, hflow.trans hs'.2⟩
  exact (hv s ⟨⟨rfl, rfl, rfl⟩, rfl⟩).2.2

-- The search finds the children one by one, and nothing but the cursor moves.
theorem handle_getNextChildHandle (w : World σ) :
    (World.handle os (.db .getNextChildHandle) w).1 = w.ctx.db.unfound.head? ∧
      (World.handle os (.db .getNextChildHandle) w).2.ctx.db.unfound = w.ctx.db.unfound.tail ∧
      (World.handle os (.db .getNextChildHandle) w).2.ctx.entry = w.ctx.entry ∧
      (World.handle os (.db .getNextChildHandle) w).2.ctx.db.entryList = w.ctx.db.entryList := by
  cases hdb : w.ctx.fsDb with
  | none =>
      have hctx : w.ctx.db = initFsDb := by rw [MtpCtx.db, hdb, Option.getD_none]
      have hnext : (World.handle os (.db .getNextChildHandle) w).2.ctx.db = initFsDb := by
        rw [World.handle, MtpCtx.applyDb, MtpCtx.db, hdb]
        rfl
      refine ⟨?_, ?_, ?_, ?_⟩
      · rw [World.handle, hctx, hdb]
        rfl
      · rw [hnext, hctx]
        rfl
      · funext p
        rw [MtpCtx.entry, hnext, MtpCtx.entry, hctx]
      · rw [hnext, hctx]
  | some db =>
      obtain ⟨hhead, htail⟩ := db.getNextChildHandle_unfound
      have hsnd := @FsHandlesDb.getNextChildHandle_snd db
      have hpool : db.getNextChildHandle.2.pool = db.pool := by rw [hsnd]
      have hlist : db.getNextChildHandle.2.entryList = db.entryList := by rw [hsnd]
      have hctx : w.ctx.db = db := by rw [MtpCtx.db, hdb, Option.getD_some]
      have hnext : (World.handle os (.db .getNextChildHandle) w).2.ctx.db =
          db.getNextChildHandle.2 := by
        rw [World.handle, MtpCtx.applyDb, MtpCtx.db, hdb]
        rfl
      refine ⟨?_, ?_, ?_, ?_⟩
      · rw [World.handle, hctx, hdb]
        exact hhead
      · rw [hnext, hctx]
        exact htail
      · funext p
        rw [MtpCtx.entry, hnext, MtpCtx.entry, hctx, hpool]
      · rw [hnext, hctx, hlist]

end Scanning

-- The handles as they are sent.
def encodeHandles (handles : List Nat) : List UInt8 := handles.flatMap (littleEndian 4)

section Poking

variable {σ : Type} {os : Os σ} {maxsize packet : Nat} {handles : List Nat}
  {waiting sent : List UInt8}

-- The handles the search still finds, the bytes that wait in the write buffer and
-- those that were sent.
structure Listing (maxsize packet : Nat) (handles : List Nat) (waiting sent : List UInt8)
    (s : World σ × Stream) : Prop where
  room : s.1.ctx.usbWrBufferMaxSize = maxsize
  packet : s.1.ctx.maxPacketSize = packet
  unfound : (s.1.ctx.db.unfound.map fun p => (s.1.ctx.entry p).handle) = handles
  waiting : s.1.ctx.wrbuffer.read 0 waiting.length = waiting
  sent : s.2.sent = sent

-- What the search answers.
def Finds (handles : List Nat) (next : Option EntryPtr) (s : World σ × Stream) : Prop :=
  next.map (fun p => (s.1.ctx.entry p).handle) = handles.head?

theorem flows_getNextChildHandle :
    Flows os (Listing maxsize packet handles waiting sent) (M.db .getNextChildHandle)
      fun next s => Finds handles next s ∧
        Listing maxsize packet handles.tail waiting sent s := by
  refine ensures_perform fun s hs _ => ?_
  obtain ⟨hhead, htail, hentry, -⟩ := @handle_getNextChildHandle _ os s.1
  have hlisting := hs.unfound
  have hworld : (stream os (.db .getNextChildHandle) s).2.1 =
      (World.handle os (.db .getNextChildHandle) s.1).2 := rfl
  refine ⟨?_, hs.room, hs.packet, ?_, hs.waiting, hs.sent⟩
  · change Option.map _ (World.handle os (.db .getNextChildHandle) s.1).1 = _
    rw [hworld, hhead, hentry, ← List.head?_map, hlisting]
  · rw [hworld, htail, hentry, List.map_tail, hlisting]

theorem poke32_eq (maxsize data : Nat) (buffer : Buffer) (ofs : Nat) :
    poke32 maxsize data (buffer, (ofs : Int)) =
      if ofs + 4 < maxsize then (buffer.write ofs (littleEndian 4 data), ((ofs + 4 : Nat) : Int))
      else (buffer, -1) := by
  rw [poke32, pokeBytes, if_neg (by simp), length_littleEndian]
  by_cases hroom : ofs + 4 < maxsize
  · rw [if_neg (by dsimp only; omega), if_pos hroom]
    rfl
  · rw [if_pos (by dsimp only; omega), if_neg hroom]

-- A handle is put behind the bytes that wait.
theorem flows_pokeHandle {p : EntryPtr} {handle : Nat} {ctx : MtpCtx}
    (hhandle : (ctx.entry p).handle = handle) (hroom : waiting.length + 4 < maxsize) :
    Flows os (fun s => Listing maxsize packet handles waiting sent s ∧ s.1.ctx = ctx)
      (M.cmd (.setWrbuffer (poke32 ctx.usbWrBufferMaxSize (ctx.entry p).handle
        (ctx.wrbuffer, waiting.length)).1)) fun _ s =>
          Listing maxsize packet handles (waiting ++ littleEndian 4 handle) sent s := by
  refine ensures_perform fun s hs _ => ?_
  obtain ⟨hs, rfl⟩ := hs
  have hpoke : (poke32 s.1.ctx.usbWrBufferMaxSize (s.1.ctx.entry p).handle
      (s.1.ctx.wrbuffer, waiting.length)).1 =
        s.1.ctx.wrbuffer.write waiting.length (littleEndian 4 handle) := by
    rw [hs.room, hhandle, poke32_eq, if_pos hroom]
  refine ⟨hs.room, hs.packet, hs.unfound, ?_, hs.sent⟩
  rw [List.length_append]
  change (Buffer.read (poke32 _ _ _).1 0 _) = _
  rw [hpoke]
  exact Buffer.read_write_behind _ hs.waiting rfl

-- What a packet holds: the next handles, one at least, up to the first that ends
-- behind the packet size.
def Filled (handles : List Nat) (maxsize packet : Nat) (waiting sent : List UInt8)
    (handleIndex : Nat) (out : Int × Nat) (s : World σ × Stream) : Prop :=
  ∃ k, k ≤ handles.length ∧ (handles ≠ [] → 0 < k) ∧
    out = (((waiting ++ encodeHandles (handles.take k)).length : Int), handleIndex + k) ∧
    Listing maxsize packet (handles.drop k) (waiting ++ encodeHandles (handles.take k)) sent s

-- A turn that finds a handle.
theorem flows_pokeHandles_cons {n handleIndex fuel handle : Nat} {rest : List Nat}
    {Q : Int × Nat → World σ × Stream → Prop}
    (hnext : waiting.length + 4 < maxsize →
      Flows os (Listing maxsize packet rest (waiting ++ littleEndian 4 handle) sent)
        (if waiting.length + 4 < packet ∧ handleIndex + 1 < n then
          pokeHandles n fuel (waiting ++ littleEndian 4 handle).length (handleIndex + 1)
        else return (((waiting ++ littleEndian 4 handle).length : Int), handleIndex + 1)) Q)
    (hover : ¬waiting.length + 4 < maxsize →
      ∀ s : World σ × Stream, s.2.sent = sent → Q (-1, handleIndex + 1) s) :
    Flows os (Listing maxsize packet (handle :: rest) waiting sent)
      (pokeHandles n (fuel + 1) waiting.length handleIndex) Q := by
  unfold pokeHandles
  refine ensures_bind flows_getNextChildHandle fun next => ?_
  refine flows_getCtx_bind fun ctx => ?_
  have hsome : ∀ s : World σ × Stream, (Finds (handle :: rest) next s ∧
      Listing maxsize packet rest waiting sent s) ∧ s.1.ctx = ctx →
        ∃ p, next = some p ∧ (ctx.entry p).handle = handle := fun s hs => by
    have hfinds := hs.1.1
    rw [Finds, hs.2, List.head?_cons, Option.map_eq_some_iff] at hfinds
    exact hfinds
  refine ensures_of_fact hsome fun hfound => ?_
  obtain ⟨p, rfl, hhandle⟩ := hfound
  have hctx : ∀ s : World σ × Stream, (Finds (handle :: rest) (some p) s ∧
      Listing maxsize packet rest waiting sent s) ∧ s.1.ctx = ctx →
        ctx.usbWrBufferMaxSize = maxsize ∧ ctx.maxPacketSize = packet :=
    fun s hs => ⟨hs.2 ▸ hs.1.2.room, hs.2 ▸ hs.1.2.packet⟩
  refine ensures_of_fact hctx fun hsizes => ?_
  obtain ⟨hsize, hlimit⟩ := hsizes
  have hlen : (waiting ++ littleEndian 4 handle).length = waiting.length + 4 := by
    rw [List.length_append, length_littleEndian]
  have hpoked : (poke32 ctx.usbWrBufferMaxSize (ctx.entry p).handle
      (ctx.wrbuffer, (waiting.length : Int))).2 =
        if waiting.length + 4 < maxsize then
          ((waiting ++ littleEndian 4 handle).length : Int) else -1 := by
    rw [hsize, poke32_eq, hlen]
    split <;> rfl
  by_cases hroom : waiting.length + 4 < maxsize
  · refine ensures_bind (ensures_weaken (flows_pokeHandle hhandle hroom)
      (fun s hs => ⟨hs.1.2, hs.2⟩) fun _ _ hs => hs) fun _ => ?_
    rw [hpoked, if_pos hroom]
    refine ensures_bind (ensures_ret (Q := fun out s =>
      out = (((waiting ++ littleEndian 4 handle).length : Int), handleIndex + 1) ∧
        Listing maxsize packet rest (waiting ++ littleEndian 4 handle) sent s)
      fun s hs => ⟨rfl, hs⟩) fun out => ?_
    refine ensures_of_fact (fun s hs => hs.1) fun hout => ?_
    subst hout
    have hiff : (0 ≤ ((waiting ++ littleEndian 4 handle).length : Int) ∧
        ((waiting ++ littleEndian 4 handle).length : Int) < packet ∧ handleIndex + 1 < n) ↔
          waiting.length + 4 < packet ∧ handleIndex + 1 < n := by
      rw [hlen]
      omega
    dsimp only
    rw [hlimit]
    simp only [hiff]
    exact ensures_weaken (hnext hroom) (fun s hs => hs.2) fun _ _ hs => hs
  · refine ensures_bind (ensures_perform (Q := fun _ s => s.2.sent = sent)
      fun s hs _ => hs.1.2.sent) fun _ => ?_
    rw [hpoked, if_neg hroom]
    refine ensures_bind (ensures_ret (Q := fun out s =>
      out = (-1, handleIndex + 1) ∧ s.2.sent = sent) fun s hs => ⟨rfl, hs⟩) fun out => ?_
    refine ensures_of_fact (fun s hs => hs.1) fun hout => ?_
    subst hout
    dsimp only
    rw [if_neg (fun h => absurd h.1 (by decide))]
    exact ensures_ret fun s hs => hover hroom s hs.2

-- A turn that finds none.
theorem flows_pokeHandles_nil {n fuel : Nat} :
    Flows os (Listing maxsize packet [] waiting sent) (pokeHandles n (fuel + 1) waiting.length n)
      fun out s => out = ((waiting.length : Int), n) ∧
        Listing maxsize packet [] waiting sent s := by
  unfold pokeHandles
  refine ensures_bind flows_getNextChildHandle fun next => ?_
  refine flows_getCtx_bind fun ctx => ?_
  have hnone : ∀ s : World σ × Stream, (Finds [] next s ∧
      Listing maxsize packet [] waiting sent s) ∧ s.1.ctx = ctx → next = none :=
    fun s hs => by simpa [Finds] using hs.1.1
  refine ensures_of_fact hnone fun hnext => ?_
  subst hnext
  refine ensures_bind (ensures_ret (Q := fun out s => out = ((waiting.length : Int), n) ∧
    Listing maxsize packet [] waiting sent s) fun s hs => ⟨rfl, hs.1.2⟩) fun out => ?_
  refine ensures_of_fact (fun s hs => hs.1) fun hout => ?_
  subst hout
  dsimp only
  rw [if_neg (fun h => absurd h.2.2 (Nat.lt_irrefl n))]
  exact ensures_ret fun s hs => ⟨rfl, hs.2⟩

theorem flows_pokeHandles {n handleIndex fuel : Nat} (hfuel : handles.length < fuel)
    (hcount : handleIndex + handles.length = n)
    (hroom : handles ≠ [] → waiting.length + 4 < maxsize)
    (hfit : packet + 4 ≤ maxsize ∨ waiting.length + 4 * handles.length < maxsize) :
    Flows os (Listing maxsize packet handles waiting sent)
      (pokeHandles n fuel waiting.length handleIndex)
      (Filled handles maxsize packet waiting sent handleIndex) := by
  induction fuel generalizing handles waiting handleIndex with
  | zero => omega
  | succ fuel ih =>
      cases handles with
      | nil =>
          obtain rfl : handleIndex = n := hcount
          refine ensures_weaken flows_pokeHandles_nil (fun s hs => hs) fun out s hs =>
            ⟨0, Nat.le_refl _, fun h => absurd rfl h, ?_, ?_⟩
          · simpa [encodeHandles] using hs.1
          · simpa [encodeHandles] using hs.2
      | cons handle rest =>
          have hroom := hroom (List.cons_ne_nil _ _)
          have hlen : (waiting ++ littleEndian 4 handle).length = waiting.length + 4 := by
            rw [List.length_append, length_littleEndian]
          have hencode : ∀ k, waiting ++ encodeHandles ((handle :: rest).take (k + 1)) =
              waiting ++ littleEndian 4 handle ++ encodeHandles (rest.take k) := by
            intro k
            rw [List.take_succ_cons, encodeHandles, List.flatMap_cons, List.append_assoc]
            rfl
          rw [List.length_cons] at hfuel hfit hcount
          refine flows_pokeHandles_cons (fun _ => ?_) fun hno => absurd hroom hno
          split
          · rename_i hnext
            have hstep := @ih rest (waiting ++ littleEndian 4 handle) (handleIndex + 1) (by omega)
              (by omega) (fun _ => by rw [hlen]; omega) (by rw [hlen]; omega)
            refine ensures_weaken hstep (fun s hs => hs) ?_
            rintro out s ⟨k, hk, -, hout, hs⟩
            refine ⟨k + 1, ?_, fun _ => Nat.succ_pos k, ?_, ?_⟩
            · rw [List.length_cons]
              omega
            · rw [hencode, hout, Nat.add_assoc, Nat.add_comm 1]
            · rw [hencode]
              exact hs
          · refine ensures_ret fun s hs => ⟨1, ?_, fun _ => Nat.one_pos, ?_, ?_⟩
            · rw [List.length_cons]
              omega
            · rw [hencode 0, List.take_zero]
              simp [encodeHandles]
            · rw [hencode 0, List.take_zero]
              simpa [encodeHandles] using hs

-- A packet size at the end of the buffer lets a long list overrun it.
theorem flows_pokeHandles_overrun {n handleIndex fuel : Nat} (hfuel : handles.length < fuel)
    (hcount : handleIndex + handles.length = n) (hwords : 4 ∣ waiting.length)
    (hsize : 4 ∣ maxsize) (hroom : waiting.length + 4 ≤ maxsize)
    (hover : maxsize ≤ waiting.length + 4 * handles.length) (hpacket : maxsize < packet + 4) :
    Flows os (Listing maxsize packet handles waiting sent)
      (pokeHandles n fuel waiting.length handleIndex) fun out s => out.1 < 0 ∧ s.2.sent = sent := by
  induction fuel generalizing handles waiting handleIndex with
  | zero => omega
  | succ fuel ih =>
      cases handles with
      | nil =>
          rw [List.length_nil] at hover
          omega
      | cons handle rest =>
          have hlen : (waiting ++ littleEndian 4 handle).length = waiting.length + 4 := by
            rw [List.length_append, length_littleEndian]
          rw [List.length_cons] at hfuel hover hcount
          refine flows_pokeHandles_cons (fun hfits => ?_) fun _ s hs => ⟨by simp, hs⟩
          rw [if_pos (by omega)]
          exact @ih rest (waiting ++ littleEndian 4 handle) (handleIndex + 1) (by omega) (by omega)
            (by rw [hlen]; omega) (by rw [hlen]; omega) (by rw [hlen]; omega)

-- A packet is sent, and nothing waits.
theorem flows_writePacket :
    Flows os (Listing maxsize packet handles waiting sent) (writeUsb .bulkIn waiting) fun _ s =>
      Listing maxsize packet handles [] (sent ++ waiting) s := by
  have hcancel : Flows os (Listing maxsize packet handles waiting sent) (M.act .getCancelReq)
      fun cancelReq s => cancelReq = false ∧ Listing maxsize packet handles waiting sent s :=
    ensures_perform fun _ hs hok => ⟨hok, hs.room, hs.packet, hs.unfound, hs.waiting, hs.sent⟩
  refine ensures_bind hcancel fun cancelReq => ?_
  refine ensures_of_fact (fun s hs => hs.1) fun hno => ?_
  rw [hno]
  refine ensures_perform fun s hs _ => ?_
  have hsent : s.2.sent ++ waiting = sent ++ waiting := by rw [hs.2.sent]
  exact ⟨hs.2.room, hs.2.packet, hs.2.unfound, rfl, hsent⟩

-- The handles go out packet by packet.
theorem flows_sendHandles {n handleIndex fuel : Nat} (hfuel : handles.length < fuel)
    (hcount : handleIndex + handles.length = n)
    (hroom : handles ≠ [] → waiting.length + 4 < maxsize)
    (hfit : packet + 4 ≤ maxsize ∨ waiting.length + 4 * handles.length < maxsize) :
    Flows os (Listing maxsize packet handles waiting sent)
      (sendHandles n fuel waiting.length handleIndex) fun done s =>
        done = true ∧ s.2.sent = sent ++ waiting ++ encodeHandles handles := by
  induction fuel generalizing handles waiting sent handleIndex with
  | zero => omega
  | succ fuel ih =>
      unfold sendHandles
      refine ensures_bind (flows_pokeHandles (by omega) hcount hroom hfit) fun out => ?_
      refine ensures_of_exists (P := fun k s => k ≤ handles.length ∧ (handles ≠ [] → 0 < k) ∧
        out = (((waiting ++ encodeHandles (handles.take k)).length : Int), handleIndex + k) ∧
        Listing maxsize packet (handles.drop k) (waiting ++ encodeHandles (handles.take k))
          sent s) fun k => ?_
      refine ensures_of_fact (fun s hs => And.intro hs.1 (And.intro hs.2.1 hs.2.2.1))
        fun hfacts => ?_
      obtain ⟨hk, hpos, rfl⟩ := hfacts
      obtain ⟨packed, hpacked⟩ : ∃ packed, packed = waiting ++ encodeHandles (handles.take k) :=
        ⟨_, rfl⟩
      rw [← hpacked]
      dsimp only
      rw [if_neg (by omega)]
      refine flows_getCtx_bind fun ctx => ?_
      refine ensures_of_fact (fun s hs => hs.2 ▸ hs.1.2.2.2.waiting) fun hwaiting => ?_
      rw [Int.toNat_natCast, hwaiting]
      have hwrite : Flows os (Listing maxsize packet (handles.drop k) packed sent)
          (writeUsb .bulkIn packed) fun _ s =>
            Listing maxsize packet (handles.drop k) [] (sent ++ packed) s :=
        flows_writePacket
      refine ensures_bind (ensures_weaken hwrite (fun s hs => hs.1.2.2.2) fun _ _ hs => hs)
        fun _ => ?_
      have hsplit : encodeHandles handles =
          encodeHandles (handles.take k) ++ encodeHandles (handles.drop k) := by
        rw [encodeHandles, encodeHandles, encodeHandles, ← List.flatMap_append,
          List.take_append_drop]
      split
      · rename_i hmore
        have hne : handles ≠ [] := by
          rintro rfl
          rw [List.length_nil] at hcount hk
          omega
        have hleft : (handles.drop k).length = handles.length - k := List.length_drop
        have hlt := hpos hne
        refine ensures_weaken (@ih (handles.drop k) [] (sent ++ packed) (handleIndex + k)
          (by omega) (by omega) (fun _ => ?_) ?_) (fun s hs => hs) fun done s hs => ⟨hs.1, ?_⟩
        · have := hroom hne
          rw [List.length_nil]
          omega
        · rw [List.length_nil]
          omega
        · rw [hs.2, hpacked, hsplit]
          simp only [List.append_nil, List.append_assoc]
      · rename_i hlast
        refine ensures_ret fun s hs => ⟨rfl, ?_⟩
        have hnone : handles.drop k = [] := List.drop_eq_nil_of_le (by omega)
        rw [hs.sent, hpacked, hsplit, hnone, List.append_assoc]
        simp [encodeHandles]

theorem flows_sendHandles_overrun {n fuel : Nat} (hcount : handles.length = n)
    (hwords : 4 ∣ waiting.length) (hsize : 4 ∣ maxsize) (hroom : waiting.length + 4 ≤ maxsize)
    (hover : maxsize ≤ waiting.length + 4 * handles.length) (hpacket : maxsize < packet + 4) :
    Flows os (Listing maxsize packet handles waiting sent)
      (sendHandles n (fuel + 1) waiting.length 0) fun done _ => done = false := by
  refine ensures_bind (flows_pokeHandles_overrun (by omega) (by omega) hwords hsize hroom hover
    hpacket) fun out => ?_
  refine ensures_of_fact (fun s hs => hs.1) fun hneg => ?_
  dsimp only
  rw [if_pos hneg]
  exact ensures_ret fun s hs => rfl

end Poking

-- One data container with the number of the handles and the handles, all of it
-- announced.
def IsHandlesContainer (hdr : Buffer) (handles : List Nat) (sent : List UInt8) : Prop :=
  16 + 4 * handles.length < 2 ^ 32 ∧
    sent = packetHeader (16 + 4 * handles.length) MTP_CONTAINER_TYPE_DATA (hdrCode hdr)
      (hdrTxId hdr) ++ littleEndian 4 handles.length ++ encodeHandles handles

section Container

variable {σ : Type} {os : Os σ} {maxsize packet n : Nat} {handles : List Nat} {hdr : Buffer}
  {header : List UInt8}

theorem littleEndian_u32 (m : Nat) : littleEndian 4 (u32 m) = littleEndian 4 m := by
  have hmod : u32 m = m % 2 ^ (8 * 4) := by
    rw [u32]
    omega
  rw [hmod, littleEndian_mod]

-- The header and the number of the handles, as they wait for the first packet.
def arrayStart (hdr : Buffer) (n : Nat) : List UInt8 :=
  packetHeader (16 + 4 * n) MTP_CONTAINER_TYPE_DATA (hdrCode hdr) (hdrTxId hdr) ++
    littleEndian 4 n

theorem length_arrayStart : (arrayStart hdr n).length = 16 := by
  rw [arrayStart, List.length_append, length_packetHeader, length_littleEndian]
  rfl

theorem flows_sendHandleArray {Q : Response → World σ × Stream → Prop} (hsize : 512 ≤ maxsize)
    (hnext : Flows os (Listing maxsize packet handles (arrayStart hdr n) []) (do
      if ← sendHandles n (n + 1) ((arrayStart hdr n).length : Int) 0 then
        checkAndSendUsbZlp (MTP_HEADER_SIZE + 4 + n * 4)
        return (MTP_RESPONSE_OK, [])
      else
        return (MTP_RESPONSE_GENERAL_ERROR, [])) Q) :
    Flows os (Listing maxsize packet handles
      (packetHeader MTP_HEADER_SIZE MTP_CONTAINER_TYPE_DATA (hdrCode hdr) (hdrTxId hdr)) [])
      (sendHandleArray n) Q := by
  have htwelve : MTP_HEADER_SIZE = 12 := rfl
  obtain ⟨rest, hrest, hsplit⟩ : ∃ rest : List UInt8, rest.length = 8 ∧ ∀ length,
      packetHeader length MTP_CONTAINER_TYPE_DATA (hdrCode hdr) (hdrTxId hdr) =
        littleEndian 4 length ++ rest := by
    refine ⟨littleEndian 2 MTP_CONTAINER_TYPE_DATA ++ littleEndian 2 (hdrCode hdr) ++
      littleEndian 4 (hdrTxId hdr), ?_, fun length => ?_⟩
    · simp only [List.length_append, length_littleEndian]
    · rw [packetHeader, List.append_assoc, List.append_assoc, List.append_assoc]
  unfold sendHandleArray
  refine flows_getCtx_bind fun ctx => ?_
  refine ensures_of_fact (fun s hs => And.intro (hs.2 ▸ hs.1.room) (hs.2 ▸ hs.1.waiting))
    fun hfacts => ?_
  obtain ⟨hroom, hwaiting⟩ := hfacts
  have hsized : poke32 (ctx.usbWrBufferMaxSize : Int) (u32 (MTP_HEADER_SIZE + (1 + n) * 4))
      (ctx.wrbuffer, 0) = (ctx.wrbuffer.write 0 (littleEndian 4 (16 + 4 * n)), 4) := by
    have hpoke := poke32_eq ctx.usbWrBufferMaxSize (u32 (16 + 4 * n : Nat)) ctx.wrbuffer 0
    rw [if_pos (by omega), littleEndian_u32] at hpoke
    have hcast : (MTP_HEADER_SIZE : Int) + (1 + n) * 4 = ((16 + 4 * n : Nat) : Int) := by omega
    rw [hcast]
    exact hpoke
  have hcounted : ∀ buffer : Buffer, poke32 (ctx.usbWrBufferMaxSize : Int) (u32 n)
      (buffer, (MTP_HEADER_SIZE : Int)) = (buffer.write 12 (littleEndian 4 n), 16) := by
    intro buffer
    have hpoke := poke32_eq ctx.usbWrBufferMaxSize (u32 n) buffer 12
    rw [if_pos (by omega), littleEndian_u32] at hpoke
    exact hpoke
  dsimp only
  rw [hsized, hcounted]
  have hstart : (arrayStart hdr n).length = 16 := length_arrayStart
  have hread : ((ctx.wrbuffer.write 0 (littleEndian 4 (16 + 4 * n))).write 12
      (littleEndian 4 n)).read 0 (arrayStart hdr n).length = arrayStart hdr n := by
    have hover : (ctx.wrbuffer.write 0 (littleEndian 4 (16 + 4 * n))).read 0 12 =
        littleEndian 4 (16 + 4 * n) ++ rest := by
      refine @Buffer.read_write_over _ (littleEndian 4 MTP_HEADER_SIZE) _ _ _ ?_ ?_
      · rw [← hsplit, ← hwaiting, length_packetHeader, htwelve]
      · rw [length_littleEndian, length_littleEndian]
    have hfront : (littleEndian 4 (16 + 4 * n) ++ rest).length = 12 := by
      rw [List.length_append, length_littleEndian, hrest]
    rw [hstart, arrayStart, hsplit]
    have hbehind := @Buffer.read_write_behind _ _ (littleEndian 4 n) 4
      (by rw [hfront]; exact hover) (length_littleEndian 4 n)
    rw [hfront] at hbehind
    exact hbehind
  have hset : Flows os (fun s => Listing maxsize packet handles
      (packetHeader MTP_HEADER_SIZE MTP_CONTAINER_TYPE_DATA (hdrCode hdr) (hdrTxId hdr)) [] s ∧
        s.1.ctx = ctx)
      (M.cmd (.setWrbuffer ((ctx.wrbuffer.write 0 (littleEndian 4 (16 + 4 * n))).write 12
        (littleEndian 4 n)))) fun _ s =>
          Listing maxsize packet handles (arrayStart hdr n) [] s :=
    ensures_perform fun s hs _ => ⟨hs.1.room, hs.1.packet, hs.1.unfound, hread, hs.1.sent⟩
  refine ensures_bind hset fun _ => ?_
  rw [hstart] at hnext
  exact hnext

-- The container goes out as a whole, or the buffer is overrun.
def Listed (hdr : Buffer) (maxsize packet : Nat) (handles : List Nat) (response : Response)
    (flow : Stream) : Prop :=
  (packet + 4 ≤ maxsize ∨ 16 + 4 * handles.length < maxsize) ∧
      response = (MTP_RESPONSE_OK, []) ∧
      flow.sent = arrayStart hdr handles.length ++ encodeHandles handles ∨
    ¬(packet + 4 ≤ maxsize ∨ 16 + 4 * handles.length < maxsize) ∧
      response = (MTP_RESPONSE_GENERAL_ERROR, [])

theorem flows_sendHandleArray_iff (hsize : 512 ≤ maxsize) (hwords : 4 ∣ maxsize)
    (hpacket : packet ≤ maxsize) (hcount : handles.length = n) :
    Flows os (Listing maxsize packet handles
      (packetHeader MTP_HEADER_SIZE MTP_CONTAINER_TYPE_DATA (hdrCode hdr) (hdrTxId hdr)) [])
      (sendHandleArray n) fun response s =>
        Listed hdr maxsize packet handles response s.2 := by
  subst hcount
  obtain ⟨n, hcount⟩ : ∃ n, handles.length = n := ⟨_, rfl⟩
  simp only [Listed, hcount]
  have hstart : (arrayStart hdr n).length = 16 := length_arrayStart
  refine flows_sendHandleArray hsize ?_
  by_cases hfit : packet + 4 ≤ maxsize ∨ 16 + 4 * n < maxsize
  · refine ensures_bind (flows_sendHandles (by omega) (by omega) (fun _ => by omega)
      (by rw [hstart]; omega)) fun done => ?_
    refine ensures_of_fact (fun s hs => hs.1) fun hdone => ?_
    subst hdone
    refine ensures_bind (ensures_weaken (flows_checkAndSendUsbZlp
      (P := fun flow => flow.sent = arrayStart hdr n ++ encodeHandles handles)
      (fun flow hflow => by rw [List.append_nil]; exact hflow) _)
      (fun s hs => by simpa using hs.2) fun _ _ hs => hs) fun _ => ?_
    exact ensures_ret fun s hs => Or.inl ⟨hfit, rfl, hs⟩
  · refine ensures_bind (flows_sendHandles_overrun hcount (by rw [hstart]; decide) hwords
      (by omega) (by omega) (by omega)) fun done => ?_
    refine ensures_of_fact (fun s hs => hs) fun hdone => ?_
    subst hdone
    exact ensures_ret fun s hs => Or.inr ⟨hfit, rfl⟩

end Container

section Counting

variable {σ : Type} {os : Os σ} {w : World σ} {parent storageId count fuel : Nat}

-- What every system does.
abbrev Always (os : Os σ) {α : Type} (P : World σ → Prop) (prog : M α)
    (Q : α → World σ → Prop) : Prop :=
  Ensures (World.handle os) (fun _ _ => True) P prog Q

-- The search is at its start, with so many children to find.
structure Counted (parent storageId count : Nat) (w : World σ) : Prop where
  unfound : w.ctx.db.unfound = w.ctx.childrenOf parent storageId
  count : (w.ctx.childrenOf parent storageId).length = count

theorem childrenOf_congr {ctx ctx' : MtpCtx} (hlist : ctx'.db.entryList = ctx.db.entryList)
    (hentry : ∀ p, (ctx'.entry p).isDeleted = (ctx.entry p).isDeleted ∧
      (ctx'.entry p).identity = (ctx.entry p).identity) :
    ctx'.childrenOf parent storageId = ctx.childrenOf parent storageId := by
  rw [MtpCtx.childrenOf, MtpCtx.childrenOf, hlist]
  refine List.filter_congr fun p _ => ?_
  obtain ⟨hdeleted, hid⟩ := hentry p
  simp only [FsEntry.identity, Prod.mk.injEq] at hid
  rw [hdeleted, hid.1, hid.2.1, hid.2.2]

theorem exec_countChildren (hfuel : w.ctx.db.unfound.length < fuel) :
    (exec (World.handle os) (countChildren fuel count) w).1 = count + w.ctx.db.unfound.length ∧
      (exec (World.handle os) (countChildren fuel count) w).2.ctx.entry = w.ctx.entry ∧
      (exec (World.handle os) (countChildren fuel count) w).2.ctx.db.entryList =
        w.ctx.db.entryList := by
  induction fuel generalizing count w with
  | zero => omega
  | succ fuel ih =>
      obtain ⟨hhead, htail, hentry, hlist⟩ := @handle_getNextChildHandle _ os w
      have hstep : ∀ f : Option EntryPtr → M Nat,
          exec (World.handle os) (M.db .getNextChildHandle >>= f) w =
            exec (World.handle os) (f (World.handle os (.db .getNextChildHandle) w).1)
              (World.handle os (.db .getNextChildHandle) w).2 := fun f => exec_bind _ _ f w
      rw [countChildren, hstep, hhead]
      generalize (World.handle os (.db .getNextChildHandle) w).2 = w' at htail hentry hlist ⊢
      cases hunfound : w.ctx.db.unfound with
      | nil => exact ⟨rfl, hentry, hlist⟩
      | cons p rest =>
          rw [hunfound] at htail hfuel
          rw [List.length_cons] at hfuel
          have hrest : w'.ctx.db.unfound.length = rest.length := by rw [htail, List.tail_cons]
          obtain ⟨hcount, hentry', hlist'⟩ := @ih w' (count + 1) (by omega)
          refine ⟨hcount.trans ?_, hentry'.trans hentry, hlist'.trans hlist⟩
          rw [hrest, List.length_cons]
          omega

-- The search starts.
theorem unfound_initSearchHandle (w : World σ) :
    (World.handle os (.db (.initSearchHandle parent storageId)) w).2.ctx.db.unfound =
        w.ctx.childrenOf parent storageId ∧
      (World.handle os (.db (.initSearchHandle parent storageId)) w).2.ctx.childrenOf parent
        storageId = w.ctx.childrenOf parent storageId := by
  cases hdb : w.ctx.fsDb with
  | none =>
      have hctx : w.ctx.db = initFsDb := by rw [MtpCtx.db, hdb, Option.getD_none]
      have hnext : (World.handle os (.db (.initSearchHandle parent storageId)) w).2.ctx.db =
          initFsDb := by
        rw [World.handle, MtpCtx.applyDb, MtpCtx.db, hdb]
        rfl
      rw [hnext, MtpCtx.childrenOf, MtpCtx.childrenOf, hctx, hnext]
      exact ⟨rfl, rfl⟩
  | some db =>
      have hctx : w.ctx.db = db := by rw [MtpCtx.db, hdb, Option.getD_some]
      have hnext : (World.handle os (.db (.initSearchHandle parent storageId)) w).2.ctx.db =
          db.initSearchHandle parent storageId := by
        rw [World.handle, MtpCtx.applyDb, MtpCtx.db, hdb]
        rfl
      have hentry : (World.handle os (.db (.initSearchHandle parent storageId)) w).2.ctx.entry =
          w.ctx.entry := by
        funext p
        rw [MtpCtx.entry, hnext, MtpCtx.entry, hctx]
        rfl
      refine ⟨?_, ?_⟩
      · rw [hnext, MtpCtx.childrenOf, hctx]
        refine List.filter_congr fun p _ => ?_
        rw [MtpCtx.entry, hctx]
        rfl
      · refine childrenOf_congr ?_ fun p => by rw [hentry]; exact ⟨rfl, rfl⟩
        rw [hnext, hctx]
        rfl

-- The commands a folder is watched with change no child.
theorem counted_setWatchDescriptor (h : Counted parent storageId count w) (p : EntryPtr)
    (wd : Int) :
    Counted parent storageId count
      (World.handle os (.db (.setWatchDescriptor p wd)) w).2 := by
  obtain ⟨entry, hentry⟩ : ∃ entry, entry = { w.ctx.db.pool p with watchDescriptor := wd } :=
    ⟨_, rfl⟩
  have hdb : (World.handle os (.db (.setWatchDescriptor p wd)) w).2.ctx.db = w.ctx.db ∨
      (World.handle os (.db (.setWatchDescriptor p wd)) w).2.ctx.db =
        w.ctx.db.setEntry p entry := by
    rw [hentry]
    exact w.ctx.applyDb_cases (.setWatchDescriptor p wd)
  generalize (World.handle os (.db (.setWatchDescriptor p wd)) w).2 = w' at hdb ⊢
  rcases hdb with hdb | hdb
  · have hchildren : w'.ctx.childrenOf parent storageId = w.ctx.childrenOf parent storageId :=
      childrenOf_congr (by rw [hdb]) fun q => by
        rw [MtpCtx.entry, MtpCtx.entry, hdb]
        exact ⟨rfl, rfl⟩
    exact ⟨by rw [hdb, hchildren, h.unfound], by rw [hchildren, h.count]⟩
  · have hpool : ∀ q, (w'.ctx.db.pool q).isDeleted = (w.ctx.db.pool q).isDeleted ∧
        (w'.ctx.db.pool q).identity = (w.ctx.db.pool q).identity := by
      intro q
      rw [hdb]
      by_cases hq : q = p
      · rw [hq, FsHandlesDb.setEntry_pool_self, hentry]
        exact ⟨rfl, rfl⟩
      · rw [FsHandlesDb.setEntry_pool_of_ne _ _ hq]
        exact ⟨rfl, rfl⟩
    have hchildren : w'.ctx.childrenOf parent storageId = w.ctx.childrenOf parent storageId :=
      childrenOf_congr (by rw [hdb]; rfl) hpool
    have hunfound : w'.ctx.db.unfound = w.ctx.db.unfound := by
      rw [FsHandlesDb.unfound, FsHandlesDb.unfound]
      have hsearch : w'.ctx.db.searchEntry = w.ctx.db.searchEntry := by
        rw [hdb]
        rfl
      rw [hsearch]
      refine List.filter_congr fun q _ => ?_
      obtain ⟨hdeleted, hid⟩ := hpool q
      simp only [FsEntry.identity, Prod.mk.injEq] at hid
      have hhandle : w'.ctx.db.handleSearch = w.ctx.db.handleSearch := by
        rw [hdb]
        rfl
      have hstorage : w'.ctx.db.storageSearch = w.ctx.db.storageSearch := by
        rw [hdb]
        rfl
      rw [FsHandlesDb.isSearchedChild, FsHandlesDb.isSearchedChild, hdeleted, hid.1, hid.2.1,
        hid.2.2, hhandle, hstorage]
    exact ⟨by rw [hunfound, hchildren, h.unfound], by rw [hchildren, h.count]⟩

-- A folder that was listed is searched from its start, and all its children were
-- counted.
theorem always_listFolder (entry : Option EntryPtr) (fullPath : CString) :
    Always os (fun _ => True) (listFolder entry fullPath parent storageId) fun listed w =>
      ∀ n, listed = some n → Counted parent storageId n w := by
  have hsome : ∀ {α : Type} (prog : M α), Always os (fun _ => True) prog fun _ _ => True :=
    fun _ _ _ _ => trivial
  have hrest : ∀ scanned : Bool, Always os (fun _ => True) (do
      restoreGiduid
      if scanned then
        M.db_ (.initSearchHandle parent storageId)
        let fuel ← childFuel
        let nbOfHandles ← countChildren fuel 0
        M.db_ (.initSearchHandle parent storageId)
        watchFolder entry fullPath
        return some nbOfHandles
      else
        return none) fun listed w => ∀ n, listed = some n → Counted parent storageId n w := by
    intro scanned
    refine ensures_bind (hsome _) fun _ => ?_
    split
    · have hstart : Always os (fun _ => True) (M.db_ (.initSearchHandle parent storageId))
          fun _ w => w.ctx.db.unfound = w.ctx.childrenOf parent storageId :=
        ensures_bind (ensures_perform fun w _ _ => by
          obtain ⟨hunfound, hchildren⟩ := @unfound_initSearchHandle _ os parent storageId w
          exact hunfound.trans hchildren.symm) fun _ => ensures_ret fun _ hw => hw
      have hfuel : Always os (fun w => w.ctx.db.unfound = w.ctx.childrenOf parent storageId)
          childFuel fun fuel w => w.ctx.db.unfound = w.ctx.childrenOf parent storageId ∧
            w.ctx.db.unfound.length < fuel := by
        refine ensures_bind (ensures_perform (Q := fun ctx w =>
          w.ctx.db.unfound = w.ctx.childrenOf parent storageId ∧ w.ctx = ctx)
          fun w hw _ => ⟨hw, rfl⟩) fun ctx => ensures_ret fun w hw => ⟨hw.1, ?_⟩
        have hle : (w.ctx.childrenOf parent storageId).length ≤ w.ctx.db.entryList.length :=
          List.length_filter_le _ _
        rw [hw.1, ← hw.2]
        omega
      have hcount : ∀ fuel, Always os (fun w =>
          w.ctx.db.unfound = w.ctx.childrenOf parent storageId ∧ w.ctx.db.unfound.length < fuel)
          (countChildren fuel 0) fun n w =>
            (w.ctx.childrenOf parent storageId).length = n := by
        intro fuel w hw _
        obtain ⟨hcount, hentry, hlist⟩ := @exec_countChildren _ os w 0 fuel hw.2
        rw [childrenOf_congr hlist fun p => by rw [hentry]; exact ⟨rfl, rfl⟩, hcount, hw.1]
        omega
      have hagain : ∀ n, Always os (fun w => (w.ctx.childrenOf parent storageId).length = n)
          (M.db_ (.initSearchHandle parent storageId)) fun _ w =>
            Counted parent storageId n w :=
        fun n => ensures_bind (ensures_perform fun w hw _ => by
          obtain ⟨hunfound, hchildren⟩ := @unfound_initSearchHandle _ os parent storageId w
          exact ⟨hunfound.trans hchildren.symm, by rw [hchildren, hw]⟩) fun _ =>
            ensures_ret fun _ hw => hw
      have hwatch : ∀ n, Always os (Counted parent storageId n) (watchFolder entry fullPath)
          fun _ w => Counted parent storageId n w := by
        intro n
        have huses : Uses AnyAnswer (fun c => c = .getCtx ∨
          (∃ path, c = .act (.inotifyAddWatch path))
            ∨ ∃ p wd, c = .db (.setWatchDescriptor p wd)) (watchFolder entry fullPath) :=
          watchFolder_uses (Or.inl rfl) (fun _ => Or.inr (Or.inl ⟨_, rfl⟩))
            fun _ _ => Or.inr (Or.inr ⟨_, _, rfl⟩)
        refine ensures_weaken (ensures_of_runs (I := Counted parent storageId n) huses
          fun w c hw hc _ => ⟨trivial, ?_⟩) (fun _ hw => hw) fun _ _ hw => hw.2
        rcases hc with rfl | ⟨path, rfl⟩ | ⟨p, wd, rfl⟩
        · exact hw
        · exact ⟨hw.unfound, hw.count⟩
        · exact counted_setWatchDescriptor hw p wd
      refine ensures_bind hstart fun _ => ensures_bind hfuel fun fuel =>
        ensures_bind (hcount fuel) fun n => ensures_bind (hagain n) fun _ =>
          ensures_bind (hwatch n) fun _ => ensures_ret fun w hw m hm => ?_
      cases hm
      exact hw
    · refine ensures_ret fun w _ n hn => ?_
      cases hn
  refine ensures_bind (hsome _) fun set => ?_
  split
  · exact ensures_bind (hsome _) hrest
  · exact ensures_bind (hsome _) hrest

end Counting

end Umtp
