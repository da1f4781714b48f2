import Umtp.Ancestry
import Umtp.Bytes
import Umtp.StaleHandles

namespace Umtp

open Lib Lib.Prog Handles Text

-- Bytes written in front of others.
theorem Buffer.write_before (buffer : Buffer) (start : Nat) (front bytes : List UInt8) :
    (buffer.write (start + front.length) bytes).write start front =
      buffer.write start (front ++ bytes) := by
  funext i
  simp only [Buffer.write, List.length_append, List.getD_eq_getElem?_getD]
  by_cases hfront : start ≤ i ∧ i < start + front.length
  · rw [if_pos hfront, if_pos (by omega), List.getElem?_append_left (by omega)]
  · rw [if_neg hfront]
    by_cases hbytes : start + front.length ≤ i ∧ i < start + front.length + bytes.length
    · rw [if_pos hbytes, if_pos (by omega), List.getElem?_append_right (by omega)]
      congr 2
      omega
    · rw [if_neg hbytes, if_neg (by omega)]

-- fs_handles_db.c, the loops of `build_full_path`

namespace MtpCtx

variable (ctx : MtpCtx)

-- The entry that both loops go on with.
def nextEntry (p : EntryPtr) : Option EntryPtr :=
  if (ctx.entry p).parent ≠ 0 ∧ (ctx.entry p).parent ≠ NO_HANDLE then
    ctx.getEntryByHandle (ctx.entry p).parent
  else
    none

-- The loop that adds up `totallen`, with the entries that it visits. It has no result
-- while the turns do not suffice.
def lengthLoop : Nat → EntryPtr → Int → Option (List EntryPtr × Int)
  | 0, _, _ => none
  | turns + 1, p, totallen =>
    let totallen := totallen + (ctx.entry p).name.length + 1
    match ctx.nextEntry p with
    | some q => (lengthLoop turns q totallen).map fun out => (p :: out.1, out.2)
    | none => some ([p], totallen)

-- The loop that writes the names from the end of `full_path` on backwards: the entries it
-- visits, each with the offset it brings `full_path_offset` down to.
def fillLoop : Nat → EntryPtr → Buffer → Int → Option (List (EntryPtr × Int) × Buffer)
  | 0, _, _, _ => none
  | turns + 1, p, fullPath, fullPathOffset =>
    let name := (ctx.entry p).name
    let offset := fullPathOffset - name.length
    let fullPath := fullPath.write offset.toNat name
    let offset := offset - 1
    let fullPath := fullPath.write offset.toNat [SLASH]
    match ctx.nextEntry p with
    | some q => (fillLoop turns q fullPath offset).map fun out => ((p, offset) :: out.1, out.2)
    | none => some ([(p, offset)], fullPath)

-- The names of some entries, the last one first.
def namesPath (chain : List EntryPtr) : CString :=
  chain.reverse.flatMap fun q => SLASH :: (ctx.entry q).name

variable {ctx}

theorem climb_next (turns : Nat) (p : EntryPtr) : ctx.climb (turns + 1) p =
    match ctx.nextEntry p with
    | some q => p :: ctx.climb turns q
    | none => [p] := by
  by_cases hup : (ctx.entry p).parent ≠ 0 ∧ (ctx.entry p).parent ≠ NO_HANDLE
  · cases hq : ctx.getEntryByHandle (ctx.entry p).parent with
    | none => simp only [climb, nextEntry, if_pos hup, hq]
    | some q => simp only [climb, nextEntry, if_pos hup, hq]
  · simp only [climb, nextEntry, if_neg hup]

-- The next entry has a smaller handle.
theorem nextEntry_lt (ho : ctx.Ordered) (hrises : ctx.Rises) {p q : EntryPtr}
    (hp : p ∈ ctx.db.entryList) (hq : ctx.nextEntry p = some q) :
    q ∈ ctx.db.entryList ∧ (ctx.entry q).handle < (ctx.entry p).handle := by
  rw [nextEntry] at hq
  by_cases hup : (ctx.entry p).parent ≠ 0 ∧ (ctx.entry p).parent ≠ NO_HANDLE
  · rw [if_pos hup] at hq
    obtain ⟨hlive, hhandle, -⟩ := ho.getEntryByHandle_live hq
    have hless := (hrises p hp).resolve_left hup.1
    exact ⟨hlive.1, by omega⟩
  · rw [if_neg hup] at hq
    cases hq

theorem namesPath_cons (p : EntryPtr) (chain : List EntryPtr) :
    ctx.namesPath (p :: chain) = ctx.namesPath chain ++ SLASH :: (ctx.entry p).name := by
  rw [namesPath, List.reverse_cons, List.flatMap_append, List.flatMap_singleton]
  rfl

-- With more turns than its handle the first loop ends, and has the length of the path.
theorem lengthLoop_eq (ho : ctx.Ordered) (hrises : ctx.Rises) {p : EntryPtr}
    (hp : p ∈ ctx.db.entryList) {turns : Nat} (hturns : (ctx.entry p).handle ≤ turns)
    (totallen : Int) : ctx.lengthLoop (turns + 1) p totallen =
      some (ctx.climb turns p, totallen + (ctx.namesPath (ctx.climb turns p)).length) := by
  induction turns generalizing p totallen with
  | zero =>
      have hnone : ctx.nextEntry p = none := by
        cases hq : ctx.nextEntry p with
        | none => rfl
        | some q =>
            have hless := (nextEntry_lt ho hrises hp hq).2
            omega
      rw [lengthLoop, hnone, climb]
      simp [namesPath, Int.add_assoc]
  | succ turns ih =>
      rw [lengthLoop, climb_next]
      cases hq : ctx.nextEntry p with
      | none => simp [namesPath, Int.add_assoc]
      | some q =>
          obtain ⟨hmem, hless⟩ := nextEntry_lt ho hrises hp hq
          dsimp only
          rw [ih hmem (by omega), Option.map_some, namesPath_cons, List.length_append,
            List.length_cons]
          congr 2
          omega

-- The second loop visits the same entries, and puts the path in front of the offset it
-- starts at.
theorem fillLoop_eq (ho : ctx.Ordered) (hrises : ctx.Rises) {p : EntryPtr}
    (hp : p ∈ ctx.db.entryList) {turns : Nat} (hturns : (ctx.entry p).handle ≤ turns)
    (fullPath : Buffer) (bottom : Nat) {offset : Int}
    (hoffset : offset = bottom + (ctx.namesPath (ctx.climb turns p)).length) :
    ∃ visited, ctx.fillLoop (turns + 1) p fullPath offset =
        some (visited, fullPath.write bottom (ctx.namesPath (ctx.climb turns p))) ∧
      visited.map Prod.fst = ctx.climb turns p ∧ (∀ step ∈ visited, (bottom : Int) ≤ step.2) ∧
      visited.getLast?.map Prod.snd = some (bottom : Int) := by
  -- the entry itself, behind the path of the ones above it
  have hself : ∀ (p : EntryPtr) (front : CString) (buffer : Buffer) (offset : Int),
      offset = bottom + (front ++ SLASH :: (ctx.entry p).name).length →
      (buffer.write (offset - (ctx.entry p).name.length).toNat (ctx.entry p).name).write
        (offset - (ctx.entry p).name.length - 1).toNat [SLASH] =
          buffer.write (bottom + front.length) (SLASH :: (ctx.entry p).name) := by
    intro p front buffer offset hfront
    rw [List.length_append, List.length_cons] at hfront
    have hname : (offset - (ctx.entry p).name.length).toNat =
        bottom + front.length + [SLASH].length := by
      rw [List.length_singleton]
      omega
    have hslash : (offset - (ctx.entry p).name.length - 1).toNat = bottom + front.length := by
      omega
    rw [hname, hslash, Buffer.write_before, List.singleton_append]
  have htop : ∀ (p : EntryPtr) (buffer : Buffer) (offset : Int), ctx.nextEntry p = none →
      offset = bottom + (ctx.namesPath [p]).length → ∀ turns,
        ctx.fillLoop (turns + 1) p buffer offset =
          some ([(p, (bottom : Int))], buffer.write bottom (ctx.namesPath [p])) := by
    intro p buffer offset hnone hoffset turns
    rw [namesPath_cons] at hoffset ⊢
    have hwritten := hself p (ctx.namesPath []) buffer offset hoffset
    have hend : offset - (ctx.entry p).name.length - 1 = bottom := by
      rw [List.length_append, List.length_cons, namesPath] at hoffset
      simp only [List.reverse_nil, List.flatMap_nil, List.length_nil] at hoffset
      omega
    rw [fillLoop, hnone]
    dsimp only
    rw [hwritten, hend]
    rfl
  induction turns generalizing p fullPath offset with
  | zero =>
      have hnone : ctx.nextEntry p = none := by
        cases hq : ctx.nextEntry p with
        | none => rfl
        | some q =>
            have hless := (nextEntry_lt ho hrises hp hq).2
            omega
      exact ⟨_, htop p fullPath offset hnone hoffset 0, rfl, by simp, rfl⟩
  | succ turns ih =>
      rw [climb_next] at hoffset ⊢
      cases hq : ctx.nextEntry p with
      | none =>
          rw [hq] at hoffset
          exact ⟨_, htop p fullPath offset hq hoffset _, rfl, by simp, rfl⟩
      | some q =>
          rw [hq] at hoffset
          dsimp only at hoffset ⊢
          obtain ⟨hmem, hless⟩ := nextEntry_lt ho hrises hp hq
          rw [namesPath_cons] at hoffset ⊢
          have hwritten := hself p _ fullPath offset hoffset
          rw [List.length_append, List.length_cons] at hoffset
          obtain ⟨visited, hrest, hchain, habove, hend⟩ := ih hmem (by omega)
            (fullPath.write (bottom + (ctx.namesPath (ctx.climb turns q)).length)
              (SLASH :: (ctx.entry p).name))
            (show offset - (ctx.entry p).name.length - 1 = _ by omega)
          refine ⟨(p, offset - (ctx.entry p).name.length - 1) :: visited, ?_, ?_, ?_, ?_⟩
          · rw [fillLoop, hq]
            dsimp only
            rw [hwritten, hrest, Option.map_some, Buffer.write_before]
          · rw [List.map_cons, hchain]
          · intro step hstep
            rcases List.mem_cons.mp hstep with rfl | hstep
            · dsimp only
              omega
            · exact habove step hstep
          · cases visited with
            | nil => cases hend
            | cons step visited => rwa [List.getLast?_cons_cons]

-- More turns change nothing.
theorem fillLoop_more {turns more : Nat} (hmore : turns ≤ more) {p : EntryPtr} {fullPath : Buffer}
    {offset : Int} {out : List (EntryPtr × Int) × Buffer}
    (h : ctx.fillLoop turns p fullPath offset = some out) :
    ctx.fillLoop more p fullPath offset = some out := by
  induction turns generalizing more p fullPath offset out with
  | zero => cases h
  | succ turns ih =>
      obtain ⟨more, rfl⟩ := Nat.exists_eq_succ_of_ne_zero (by omega : more ≠ 0)
      rw [fillLoop] at h ⊢
      cases hq : ctx.nextEntry p with
      | none =>
          rw [hq] at h
          exact h
      | some q =>
          rw [hq] at h
          obtain ⟨rest, hrest, hout⟩ := Option.map_eq_some_iff.mp h
          dsimp only
          rw [ih (by omega) hrest, Option.map_some, hout]

theorem relativePath_own (p : EntryPtr) : ctx.relativePath p (ctx.entry p).name =
    ctx.namesPath (ctx.climb ctx.db.entryList.length p) := by
  refine List.flatMap_congr fun q _ => ?_
  by_cases hq : q = p
  · rw [if_pos hq, hq]
  · rw [if_neg hq]

end MtpCtx

section Reached

variable {σ : Type} {os : Os σ} {w : World σ}

-- The states between the events of a run, and those in which an event issues a command.
def World.Reached (os : Os σ) (start w : World σ) : Prop :=
  ∃ events, w = run (World.step os) start events ∨
    ∃ event c, (w, c) ∈ World.trace os (run (World.step os) start events) event

theorem rising_reached {start : World σ} (hstart : start.ctx.Initial)
    (hw : World.Reached os start w) : w.ctx.Ordered ∧ w.ctx.Recorded ∧ w.ctx.Rising := by
  obtain ⟨events, rfl | ⟨event, c, hstep⟩⟩ := hw
  · have hgrown := @wellGrown_run _ os _ hstart.wellGrown events
    exact ⟨hgrown.ordered, hgrown.recorded, hgrown.rising⟩
  · have hgrown := @wellGrown_run _ os _ hstart.wellGrown events
    exact @trace_keeps _ _ _ _ (World.handle os) (fun w c => c.Proper w.ctx)
      (fun w : World σ => w.ctx.Ordered ∧ w.ctx.Recorded ∧ w.ctx.Rising)
      (fun w c hi hc => ⟨ordered_of_proper hi.1 hc, recorded_step c hi.2.1,
        rising_handle hi.1 hi.2.1 hi.2.2 hc⟩) event.program _
      (proper_event hgrown.toRegular event) ⟨hgrown.ordered, hgrown.recorded, hgrown.rising⟩
      _ hstep

-- In every state of a session that has not used up the handles, the handles of the
-- parents are smaller. Both loops of `build_full_path` end then, after the same entries,
-- and the second one ends at the length of the root with the path behind it.
theorem full_path_filled (os : Os σ) (start w : World σ) (hstart : start.ctx.Initial)
    (hw : World.Reached os start w)
    (hlen : w.ctx.db.entryList.length < UINT32_SIZE - 2) :
    (∀ p ∈ w.ctx.db.entryList, (w.ctx.entry p).handle ≠ 0 →
      (w.ctx.entry p).parent < (w.ctx.entry p).handle) ∧
    ∀ p ∈ w.ctx.db.entryList, ∀ (rootPath : Option CString) (fullPath : Buffer),
      ∃ chain totallen visited filled, (∀ turns, (w.ctx.entry p).handle < turns →
          w.ctx.lengthLoop turns p 0 = some (chain, totallen) ∧
          w.ctx.fillLoop turns p fullPath (totallen + (rootPath.getD []).length) =
            some (visited, filled)) ∧
        visited.map Prod.fst = chain ∧
        (∀ step ∈ visited, ((rootPath.getD []).length : Int) ≤ step.2) ∧
        visited.getLast?.map Prod.snd = some ((rootPath.getD []).length : Int) ∧
        (filled.write 0 (rootPath.getD [])).read 0
            (totallen + (rootPath.getD []).length).toNat =
          rootPath.getD [] ++ w.ctx.relativePath p (w.ctx.entry p).name := by
  obtain ⟨ho, hrecorded, hrising⟩ := rising_reached hstart hw
  have hrises := hrising (by omega)
  refine ⟨fun p hp hroot => ?_, fun p hp rootPath fullPath => ?_⟩
  · rcases hrises p hp with hzero | hless
    · omega
    · exact hless
  · obtain ⟨root, hrootPath⟩ : ∃ root, root = rootPath.getD [] := ⟨_, rfl⟩
    rw [← hrootPath]
    have hhandle := (hrecorded.handle_lt (by omega) hp).2
    have hchain : ∀ turns, (w.ctx.entry p).handle ≤ turns →
        w.ctx.climb turns p = w.ctx.climb (w.ctx.entry p).handle p := fun turns hturns =>
      MtpCtx.climb_congr ho hrises hp hturns (le_refl _)
    rw [MtpCtx.relativePath_own, hchain _ hhandle]
    obtain ⟨path, hpath⟩ : ∃ path,
      path = w.ctx.namesPath (w.ctx.climb (w.ctx.entry p).handle p) := ⟨_, rfl⟩
    obtain ⟨visited, hfill, hvisited, habove, hend⟩ :=
      MtpCtx.fillLoop_eq ho hrises hp (le_refl _) fullPath root.length rfl
    rw [← hpath] at hfill ⊢
    refine ⟨_, (path.length : Int), visited, fullPath.write root.length path,
      fun turns hturns => ⟨?_, ?_⟩, hvisited, habove, hend, ?_⟩
    · obtain ⟨turns, rfl⟩ := Nat.exists_eq_succ_of_ne_zero (by omega : turns ≠ 0)
      have hlength := MtpCtx.lengthLoop_eq ho hrises hp (Nat.le_of_lt_succ hturns) 0
      rwa [hchain turns (Nat.le_of_lt_succ hturns), ← hpath, Int.zero_add] at hlength
    · rw [Int.add_comm]
      exact MtpCtx.fillLoop_more hturns hfill
    · have hwritten := fullPath.write_before 0 root path
      rw [Nat.zero_add] at hwritten
      have htotal : ((path.length : Int) + root.length).toNat = (root ++ path).length := by
        rw [List.length_append]
        omega
      rw [hwritten, htotal, Buffer.read_write_self]

-- The file "f" of the second storage, "/b".
theorem full_path_filled_sample :
    let w := run (World.step memOs) twoStorages [openSession, getObjectHandles 0xFFFF0002 0]
    (w.ctx.entry ⟨1, 1021⟩).parent < (w.ctx.entry ⟨1, 1021⟩).handle ∧
      ∃ chain totallen visited filled,
        w.ctx.lengthLoop 2 ⟨1, 1021⟩ 0 = some (chain, totallen) ∧
        w.ctx.fillLoop 2 ⟨1, 1021⟩ (fun _ => 0) (totallen + 2) = some (visited, filled) ∧
        visited.getLast?.map Prod.snd = some 2 := by
  obtain ⟨hparents, hpaths⟩ := full_path_filled memOs twoStorages
    (run (World.step memOs) twoStorages [openSession, getObjectHandles 0xFFFF0002 0])
    twoStorages_initial ⟨_, Or.inl rfl⟩ (by decide +kernel)
  obtain ⟨chain, totallen, visited, filled, hloops, -, -, hend, -⟩ :=
    hpaths ⟨1, 1021⟩ (by decide +kernel) (some B_ROOT) fun _ => 0
  have hturns := hloops 2 (by decide +kernel)
  exact ⟨hparents ⟨1, 1021⟩ (by decide +kernel) (by decide +kernel), chain, totallen, visited,
    filled, hturns.1, hturns.2, hend⟩

end Reached

end Umtp
