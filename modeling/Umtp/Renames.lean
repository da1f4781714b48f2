import Umtp.Answers
import Umtp.Deletions
import Umtp.WholeNames
import Umtp.FullPathLoops
import Umtp.WriteProtection
import Umtp.Handles.Losses

namespace Umtp

open Lib Lib.Prog Handles Text

variable {σ α : Type} {os : Os σ} {tree : σ → FileTree} {ctx : MtpCtx} {w : World σ} {p : EntryPtr}

-- The renames that the system has made, in order.
def noteRename : (c : Cmd) → c.Ans → List (CString × CString) → List (CString × CString)
  | .act (.rename _ path path2), true, made => made ++ [(path, path2)]
  | _, _, made => made

def tally {σ : Type} (os : Os σ) :
    Handler Cmd Cmd.Ans (World σ × List (CString × CString)) :=
  observe (World.handle os) fun c _ ans made => noteRename c ans made

-- The commands that a path and an identity are found with.
def Cmd.Prepares : Cmd → Prop
  | getCtx | query _ | act .malloc | act (.setfsuid _) | act (.setfsgid _) => True
  | _ => False

theorem prepares_identifies : Identifies Cmd.Prepares where
  getCtx := trivial
  query _ := trivial
  malloc := trivial
  setfsuid _ := trivial
  setfsgid _ := trivial

section Prepares

variable {made : List (CString × CString)}

theorem noteRename_of_prepares {c : Cmd} (hc : c.Prepares) (ans : c.Ans) :
    noteRename c ans made = made := by
  cases c with
  | act a =>
      cases a with
      | rename storageId path path2 => exact hc.elim
      | _ => rfl
  | _ => rfl

-- They change the system only.
theorem exec_prepares (os : Os σ) (made : List (CString × CString)) {prog : M α}
    (hp : Uses AnyAnswer Cmd.Prepares prog) (w : World σ) :
    ∃ s, (∀ {β : Type} (f : α → M β), exec (tally os) (prog >>= f) (w, made) =
        exec (tally os) (f (exec (World.handle os) prog w).1) (⟨w.ctx, s⟩, made)) ∧
      ∀ tree, os.HasLinks tree → tree s = tree w.os := by
  have hsame := exec_observe (h := World.handle os)
    (fun c _ ans made => noteRename c ans made) prog (w, made)
  have hctx : (exec (World.handle os) prog w).2.ctx = w.ctx := by
    refine looks_exec (uses_mono hp fun c hc => ?_) w
    cases c with
    | getCtx => trivial
    | query q => trivial
    | act a => trivial
    | _ => exact hc.elim
  have hmade : (exec (tally os) prog (w, made)).2.2 = made := by
    refine uses_exec (I := fun s : World σ × List (CString × CString) => s.2 = made) hp
      (fun s c hc hi => ?_) rfl
    exact (noteRename_of_prepares hc _).trans hi
  refine ⟨(exec (World.handle os) prog w).2.os, ?_, fun tree hlinks => ?_⟩
  · intro β f
    have hends : exec (tally os) prog (w, made) = ((exec (World.handle os) prog w).1,
        ⟨w.ctx, (exec (World.handle os) prog w).2.os⟩, made) := by
      refine Prod.ext hsame.1 (Prod.ext (hsame.2.trans ?_) hmade)
      rw [← hctx]
    rw [bind_eq, exec_bind, hends]
  · refine hlinks.kept (uses_mono hp fun c hc => ?_) w
    cases c with
    | getCtx => trivial
    | query q => trivial
    | act a =>
        cases a with
        | malloc => trivial
        | setfsuid uid => trivial
        | setfsgid gid => trivial
        | _ => exact hc.elim
    | _ => exact hc.elim

end Prepares

-- The path of the entry under the name, in a state with the same files.
def BuiltPath (os : Os σ) (w : World σ) (p : EntryPtr) (name path : CString) : Prop :=
  ∃ s, (∀ tree, os.HasLinks tree → tree s = tree w.os) ∧
    (exec (World.handle os) (buildFullPathNamed
      (w.ctx.mtpGetStorageRoot (w.ctx.entry p).storageId) p name) ⟨w.ctx, s⟩).1 = some path

-- The file has been renamed, and the entry with it.
structure RenameMade (os : Os σ) (hdr : Buffer) (p : EntryPtr) (w w' : World σ)
    (path path2 name : CString) (mem : AllocMem) : Prop where
  named : newFilename hdr = some name
  source : BuiltPath os w p (w.ctx.entry p).name path
  target : BuiltPath os w p name path2
  ctx : w'.ctx = w.ctx.applyDb (.renameEntry mem p name)

theorem prepares_getObjectPropFilename (hdr : Buffer) :
    Uses AnyAnswer Cmd.Prepares (getObjectPropFilename hdr) := by
  refine uses_bind (uses_act_of trivial) fun memory => ?_
  split
  · exact uses_pure _
  · exact uses_pure _

theorem noteRename_refused (storageId : Nat) (path path2 : CString)
    (made : List (CString × CString)) :
    noteRename (.act (.rename storageId path path2)) false made = made := rfl

theorem noteRename_made (storageId : Nat) (path path2 : CString)
    (made : List (CString × CString)) :
    noteRename (.act (.rename storageId path path2)) true made = made ++ [(path, path2)] := rfl

theorem exec_tally_getCtx (f : MtpCtx → M α) (w : World σ) (made : List (CString × CString)) :
    exec (tally os) (M.getCtx >>= f) (w, made) = exec (tally os) (f w.ctx) (w, made) := rfl

theorem exec_tally_act (a : Action) (f : a.Ans → M α) (w : World σ)
    (made : List (CString × CString)) :
    exec (tally os) (M.act a >>= f) (w, made) =
      exec (tally os) (f (os.act a w.os).1)
        (⟨w.ctx, (os.act a w.os).2⟩, noteRename (.act a) (os.act a w.os).1 made) := rfl

-- A rename is made on the disk and in the database, or nowhere.
theorem exec_renameObject (os : Os σ) (hdr : Buffer) (p : EntryPtr) (w : World σ) :
    let result := exec (tally os) (renameObject hdr p) (w, [])
    (result.1 = MTP_RESPONSE_GENERAL_ERROR ∧ result.2.1.ctx = w.ctx ∧ result.2.2 = []) ∨
      result.1 = MTP_RESPONSE_OK ∧ ∃ path path2 name mem, result.2.2 = [(path, path2)] ∧
        RenameMade os hdr p w result.2.1 path path2 name mem := by
  have hl := prepares_identifies
  obtain ⟨s1, hexec1, htree1⟩ := exec_prepares os [] (hl.buildFullPathNamed
    (w.ctx.mtpGetStorageRoot (w.ctx.entry p).storageId) p (w.ctx.entry p).name) w
  obtain ⟨s2, hexec2, htree2⟩ := exec_prepares os []
    (prepares_getObjectPropFilename hdr) ⟨w.ctx, s1⟩
  intro result
  have hresult : result = exec (tally os) (renameObject hdr p) (w, []) := rfl
  rw [renameObject, exec_tally_getCtx] at hresult
  dsimp only at hresult
  rw [buildFullPath, bind_eq, bind_eq, bind_assoc, ← bind_eq, exec_tally_getCtx, ← bind_eq,
    hexec1] at hresult
  cases hpath : (exec (World.handle os) (buildFullPathNamed
      (w.ctx.mtpGetStorageRoot (w.ctx.entry p).storageId) p (w.ctx.entry p).name) w).1 with
  | none =>
      rw [hpath] at hresult
      rw [hresult]
      exact Or.inl ⟨rfl, rfl, rfl⟩
  | some path =>
      rw [hpath] at hresult
      dsimp only at hresult
      rw [hexec2] at hresult
      cases hname : (exec (World.handle os) (getObjectPropFilename hdr) ⟨w.ctx, s1⟩).1 with
      | none =>
          rw [hname] at hresult
          rw [hresult]
          exact Or.inl ⟨rfl, rfl, rfl⟩
      | some name =>
          rw [hname] at hresult
          dsimp only at hresult
          obtain ⟨s3, hexec3, htree3⟩ := exec_prepares os []
            (hl.buildFullPathNamed (w.ctx.mtpGetStorageRoot (w.ctx.entry p).storageId) p name)
            ⟨w.ctx, s2⟩
          rw [hexec3] at hresult
          cases htarget : (exec (World.handle os) (buildFullPathNamed
              (w.ctx.mtpGetStorageRoot (w.ctx.entry p).storageId) p name) ⟨w.ctx, s2⟩).1 with
          | none =>
              rw [htarget] at hresult
              rw [hresult]
              exact Or.inl ⟨rfl, rfl, rfl⟩
          | some path2 =>
              rw [htarget] at hresult
              dsimp only at hresult
              obtain ⟨s4, hexec4, -⟩ := exec_prepares os []
                (hl.setStorageGiduid (w.ctx.entry p).storageId) ⟨w.ctx, s3⟩
              rw [hexec4] at hresult
              cases hset : (exec (World.handle os)
                  (setStorageGiduid (w.ctx.entry p).storageId) ⟨w.ctx, s3⟩).1 with
              | false =>
                  rw [hset, if_neg Bool.false_ne_true] at hresult
                  obtain ⟨s5, hexec5, -⟩ := exec_prepares os []
                    hl.restoreGiduid ⟨w.ctx, s4⟩
                  rw [pure_eq, bind_eq, ret_bind, hexec5] at hresult
                  rw [hresult]
                  exact Or.inl ⟨rfl, rfl, rfl⟩
              | true =>
                  rw [hset, if_pos rfl, exec_tally_act] at hresult
                  cases hans : (os.act (.rename (w.ctx.entry p).storageId path path2) s4).1 with
                  | false =>
                      obtain ⟨s5, hexec5, -⟩ := exec_prepares os []
                        hl.restoreGiduid
                        ⟨w.ctx, (os.act (.rename (w.ctx.entry p).storageId path path2) s4).2⟩
                      rw [hans, noteRename_refused, hexec5] at hresult
                      rw [hresult]
                      exact Or.inl ⟨rfl, rfl, rfl⟩
                  | true =>
                      obtain ⟨s5, hexec5, -⟩ := exec_prepares os
                        [(path, path2)] hl.restoreGiduid
                        ⟨w.ctx, (os.act (.rename (w.ctx.entry p).storageId path path2) s4).2⟩
                      rw [hans, noteRename_made, List.nil_append, hexec5] at hresult
                      rw [hresult]
                      refine Or.inr ⟨rfl, path, path2, name, _, rfl, ?_, ⟨_, fun _ _ => rfl, hpath⟩,
                        ⟨s2, fun tree ht => ?_, htarget⟩, rfl⟩
                      · exact exec_getObjectPropFilename hdr hname
                      · exact (htree2 tree ht).trans (htree1 tree ht)

-- The rename is the only command that may change a file.
def Cmd.OnlyRenames (storageId : Nat) (c : Cmd) : Prop :=
  c.changes ≠ none → ∃ path path2, c = .act (.rename storageId path path2)

theorem onlyRenames_identifies (storageId : Nat) : Identifies (Cmd.OnlyRenames storageId) where
  getCtx h := absurd rfl h
  query _ h := absurd rfl h
  malloc h := absurd rfl h
  setfsuid _ h := absurd rfl h
  setfsgid _ h := absurd rfl h

theorem onlyRenames_renameObject (hdr : Buffer) (p : EntryPtr) (w : World σ) :
    ∀ step ∈ trace (World.handle os) (renameObject hdr p) w,
      step.2.OnlyRenames (w.ctx.entry p).storageId := by
  have hl := onlyRenames_identifies (w.ctx.entry p).storageId
  have hrename : ∀ path path2, Cmd.OnlyRenames (w.ctx.entry p).storageId
      (.act (.rename (w.ctx.entry p).storageId path path2)) := fun _ _ _ => ⟨_, _, rfl⟩
  have hmem : Cmd.OnlyRenames (w.ctx.entry p).storageId (.act .entryMemory) := fun h =>
    absurd rfl h
  have hdb : ∀ op, Cmd.OnlyRenames (w.ctx.entry p).storageId (.db op) := fun _ h => absurd rfl h
  have hread : Uses AnyAnswer (Cmd.OnlyRenames (w.ctx.entry p).storageId)
      (getObjectPropFilename hdr) := by
    refine uses_bind (uses_act_of hl.malloc) fun memory => ?_
    split
    · exact uses_pure _
    · exact uses_pure _
  intro step hstep
  rcases List.mem_cons.mp hstep with rfl | hstep
  · exact hl.getCtx
  · refine uses_trace ?_ (World.handle os) _ step hstep
    show Uses AnyAnswer _ (buildFullPath _ p >>= _)
    refine uses_bind (hl.getCtx_bind fun _ => hl.buildFullPathNamed _ _ _) fun path => ?_
    cases path with
    | none => exact uses_pure _
    | some path =>
        refine uses_bind hread fun name => ?_
        cases name with
        | none => exact uses_pure _
        | some name =>
            refine uses_bind (hl.buildFullPathNamed _ _ _) fun path2 => ?_
            cases path2 with
            | none => exact uses_pure _
            | some path2 =>
                refine uses_bind (hl.setStorageGiduid _) fun set => ?_
                have hrest : ∀ renamed : Bool,
                    Uses AnyAnswer (Cmd.OnlyRenames (w.ctx.entry p).storageId) (do
                      restoreGiduid
                      if renamed then
                        let mem ← M.act .entryMemory
                        M.db_ (.renameEntry mem p name)
                        return MTP_RESPONSE_OK
                      else
                        return MTP_RESPONSE_GENERAL_ERROR) := by
                  intro renamed
                  refine uses_bind hl.restoreGiduid fun _ => ?_
                  cases renamed with
                  | false => exact uses_pure _
                  | true =>
                      refine uses_bind (uses_act_of hmem) fun mem => ?_
                      exact uses_bind (uses_db_ (hdb _)) fun _ => uses_pure _
                cases set with
                | false => exact hrest false
                | true => exact uses_bind (uses_act_of (hrename _ _)) hrest

-- Where the paths lead

-- The path of the folder of an entry, with the slash behind it.
def MtpCtx.folderPath (ctx : MtpCtx) (p : EntryPtr) : CString :=
  ctx.pathBelow (ctx.entry p).parent []

theorem MtpCtx.folderPath_eq (ctx : MtpCtx) (p : EntryPtr) :
    ∃ above, ctx.folderPath p = above ++ [SLASH] ∧
      ∀ name, ctx.pathBelow (ctx.entry p).parent name = above ++ SLASH :: name := by
  simp only [folderPath, pathBelow]
  split
  · split
    · exact ⟨_, rfl, fun _ => rfl⟩
    · exact ⟨[], rfl, fun _ => rfl⟩
  · exact ⟨[], rfl, fun _ => rfl⟩

theorem BuiltPath.resolution {name path root : CString} (h : BuiltPath os w p name path)
    (hlinks : os.HasLinks tree)
    (hroot : w.ctx.mtpGetStorageRoot (w.ctx.entry p).storageId = some root)
    (habsolute : root.head? = some SLASH) :
    (resolution (tree w.os).realpath (root ++ w.ctx.relativePath p name) name).bind
      (checkRoot root) = some path := by
  obtain ⟨s, htree, hbuilt⟩ := h
  rw [hroot] at hbuilt
  have hnow := @exec_buildFullPathNamed _ os
    (fun path => os.query (.realpath path) (os.act .malloc s).2) root name p ⟨w.ctx, s⟩
    fun _ => rfl
  rcases hnow with ⟨hnone, -⟩ | heq
  · rw [hnone] at hbuilt
    cases hbuilt
  · rw [heq] at hbuilt
    obtain ⟨front, hfront⟩ := @MtpCtx.relativePath_eq w.ctx p name
    have hhead : (root ++ (front ++ [SLASH])).head? = some SLASH :=
      head_of_front habsolute (List.prefix_append _ _)
    have hsplit : root ++ w.ctx.relativePath p name = root ++ (front ++ [SLASH]) ++ name := by
      rw [hfront]
      simp
    have hsame : ∀ path, path.head? = some SLASH →
        os.query (.realpath path) (os.act .malloc s).2 = (tree w.os).realpath path := by
      intro path hpath
      rw [hlinks.realpath path _ hpath, hlinks.malloc, htree tree hlinks]
    rw [hsplit, ← resolution_congr hsame hhead name, ← hsplit]
    exact hbuilt

section Places

variable {files : FileTree} {front : CString} {dir : List FileName} {left : Nat}

-- A path that is resolved passes its folder.
theorem folder_of_realpath {name : FileName} {found : CString}
    (h : files.realpath (front ++ SLASH :: name.val) = .ok found) :
    ∃ dir left, files.lookup front = .ok (dir, left) ∧ files.Dir dir := by
  obtain ⟨place, left, hlookup, -, -⟩ := FileTree.lookup_of_realpath h
  rw [FileTree.lookup, partsOf_append] at hlookup
  obtain ⟨dir, left', hfront, hdir, -⟩ := Tree.walk_append (by simp [partsOf_name])
    Tree.Dir.top hlookup
  exact ⟨dir, left', hfront, hdir⟩

theorem lookup_in_folder (hfront : files.lookup front = .ok (dir, left)) (hdir : files.Dir dir)
    (name : FileName) :
    files.lookup (front ++ SLASH :: name.val) = files.walk left dir [.into name] := by
  rw [FileTree.lookup, partsOf_append, partsOf_name]
  exact Tree.walk_from (by simp) Tree.Dir.top hfront hdir

theorem exists_of_dir (hdir : files.Dir dir) : files.exists? dir = true := by
  by_cases hnil : dir = []
  · subst hnil
    rfl
  · rw [Tree.exists?, hdir dir (List.prefix_refl dir) hnil]
    simp

theorem realpath_folder (hfront : files.lookup front = .ok (dir, left)) (hdir : files.Dir dir) :
    files.realpath (front ++ [SLASH]) = .ok (render dir) := by
  have hstay : partsOf (front ++ [SLASH]) = partsOf front ++ [.stay] := partsOf_append front []
  have hlookup : files.lookup (front ++ [SLASH]) = .ok (dir, left) := by
    rw [FileTree.lookup, hstay, Tree.walk_from (by simp) Tree.Dir.top hfront hdir, Tree.walk_eq]
    rfl
  exact FileTree.realpath_of_lookup hlookup (exists_of_dir hdir)

-- What stands in the folder under the name, other than a link, is at its place.
theorem realpath_in_folder (hfront : files.lookup front = .ok (dir, left))
    (hdir : files.Dir dir) (name : FileName)
    (hlink : ∀ absolute target, files (dir ++ [name]) ≠ some (.link absolute target)) :
    files.realpath (front ++ SLASH :: name.val) =
      if (files (dir ++ [name])).isSome then .ok (render (dir ++ [name])) else .error .ENOENT := by
  have hwalk : files.walk left dir [.into name] = .ok (dir ++ [name], left) := by
    rw [Tree.walk_eq, Tree.leg]
    cases hnode : files (dir ++ [name]) with
    | none => rfl
    | some node =>
        cases node with
        | file => rfl
        | dir => rfl
        | link absolute target => exact absurd hnode (hlink absolute target)
  rw [FileTree.realpath, lookup_in_folder hfront hdir, hwalk]
  simp [Tree.exists?]

end Places

-- The call names what it moves and where it moves it in one folder.
theorem places_of_rename {path path2 root : CString} {old new : FileName}
    (hlinks : os.HasLinks tree)
    (hroot : w.ctx.mtpGetStorageRoot (w.ctx.entry p).storageId = some root)
    (habsolute : root.head? = some SLASH) (hclean : IsSanitized new.val)
    (hpath : ∀ name, w.ctx.relativePath p name = w.ctx.pathBelow (w.ctx.entry p).parent name)
    (hsource : BuiltPath os w p old.val path) (htarget : BuiltPath os w p new.val path2)
    (hexists : ∃ found, (tree w.os).realpath (root ++ w.ctx.relativePath p old.val) = .ok found) :
    ∃ dir, (tree w.os).Dir dir ∧
      (tree w.os).realpath (root ++ w.ctx.folderPath p) = .ok (render dir) ∧
      ((∀ absolute target, tree w.os (dir ++ [old]) ≠ some (.link absolute target)) →
        path = render (dir ++ [old])) ∧
      (tree w.os (dir ++ [new]) = none → path2 = render dir ++ SLASH :: new.val) := by
  obtain ⟨above, hfolder, hbelow⟩ := w.ctx.folderPath_eq p
  have hwhole : ∀ name, root ++ w.ctx.relativePath p name = (root ++ above) ++ SLASH :: name := by
    intro name
    rw [hpath, hbelow, List.append_assoc]
  obtain ⟨found, hfound⟩ := hexists
  rw [hwhole] at hfound
  obtain ⟨dir, left, hfront, hdir⟩ := folder_of_realpath hfound
  have hfold : root ++ w.ctx.folderPath p = (root ++ above) ++ [SLASH] := by
    rw [hfolder, List.append_assoc]
  refine ⟨dir, hdir, ?_, fun hlink => ?_, fun hnew => ?_⟩
  · rw [hfold]
    exact realpath_folder hfront hdir
  · have hbuilt := hsource.resolution hlinks hroot habsolute
    have hreal := realpath_in_folder hfront hdir old hlink
    rw [hfound] at hreal
    rw [Umtp.resolution, hwhole, hfound] at hbuilt
    obtain ⟨rfl, -⟩ := checkRoot_eq_some.mp hbuilt
    by_cases hsome : (tree w.os (dir ++ [old])).isSome = true
    · rw [if_pos hsome] at hreal
      exact Except.ok.inj hreal
    · rw [if_neg hsome] at hreal
      cases hreal
  · have hbuilt := htarget.resolution hlinks hroot habsolute
    have hreal := realpath_in_folder hfront hdir new fun _ _ h => by
      rw [hnew] at h
      cases h
    rw [hnew] at hreal
    have htake : ((root ++ above) ++ SLASH :: new.val).take
        (((root ++ above) ++ SLASH :: new.val).length - new.val.length) =
        (root ++ above) ++ [SLASH] := by
      rw [show (root ++ above) ++ SLASH :: new.val = (root ++ above ++ [SLASH]) ++ new.val by simp,
        List.length_append, Nat.add_sub_cancel, List.take_left]
    rw [Umtp.resolution, hwhole, hreal] at hbuilt
    simp only [Option.isSome_none, Bool.false_eq_true, if_false] at hbuilt
    rw [htake, realpath_folder hfront hdir] at hbuilt
    dsimp only at hbuilt
    obtain ⟨found2, hmap, hcheck⟩ := Option.bind_eq_some_iff.mp hbuilt
    obtain ⟨rfl, -⟩ := checkRoot_eq_some.mp hcheck
    obtain ⟨sanitized, hsanitized, rfl⟩ := Option.map_eq_some_iff.mp hmap
    rw [hclean.sanitizeName hsanitized]

-- The call moves what has the old name in the folder to the new name, where nothing is.
def MovedIn (files : FileTree) (folder path path2 : CString) (old new : FileName) : Prop :=
  (∃ found, files.realpath (folder ++ old.val) = .ok found) →
    ∃ dir, files.Dir dir ∧ files.realpath folder = .ok (render dir) ∧
      ((∀ absolute target, files (dir ++ [old]) ≠ some (.link absolute target)) →
        path = render (dir ++ [old])) ∧
      (files (dir ++ [new]) = none → path2 = render dir ++ SLASH :: new.val)

-- The entry has the new name, and is found under it alone.
structure Reindexed (db db' : FsHandlesDb) (p : EntryPtr) (name : CString) (mem : AllocMem) :
    Prop where
  entryList : db'.entryList = db.entryList
  entry : db'.pool p = { db.pool p with name := name }
  others : ∀ q, q ≠ p → db'.pool q = db.pool q
  found : db.findEntry name (db.pool p).parent (db.pool p).storageId = none →
    db'.findEntry name (db.pool p).parent (db.pool p).storageId =
      if ((db.removeEntry p).hashTableByName (bucketOfName name)).takes mem.nodeName = true
      then some p else none
  left : (db.pool p).name ≠ name →
    db'.findEntry (db.pool p).name (db.pool p).parent (db.pool p).storageId ≠ some p

theorem reindexed_renameEntry {db : FsHandlesDb} (hst : Handles.Stored db) (hp : db.Live p)
    (mem : AllocMem) (name : CString) :
    Reindexed db (db.renameEntry mem p name) p name mem := by
  have hentry : (db.renameEntry mem p name).pool p = { db.pool p with name := name } := by
    rw [FsHandlesDb.renameEntry_pool, FsHandlesDb.setEntry_pool_self]
  refine ⟨rfl, hentry, fun q hq => ?_, findEntry_renameEntry hst hp, fun hne hfound => ?_⟩
  · rw [FsHandlesDb.renameEntry_pool, FsHandlesDb.setEntry_pool_of_ne _ _ hq]
  · have hname := (FsHandlesDb.findEntry_eq_some hfound).1
    rw [hentry] at hname
    exact hne hname.symm

theorem session_of_listed (hp : p ∈ ctx.db.entryList) : ctx.fsDb = some ctx.db := by
  rw [MtpCtx.db] at hp ⊢
  cases hdb : ctx.fsDb with
  | some db => rfl
  | none =>
      rw [hdb] at hp
      simp [initFsDb] at hp

theorem checkHandleAccess_not_ok {entry : Option EntryPtr} {handle : Nat} {write : Bool}
    {code : Nat} (h : ctx.checkHandleAccess entry handle write = some code) :
    code ≠ MTP_RESPONSE_OK := by
  have hcodes : ∀ code ∈ accessRefusals, code ≠ MTP_RESPONSE_OK := by decide
  exact hcodes code (MtpCtx.checkHandleAccess_codes h)

-- The request comes down to the rename of an entry, or to an error.
theorem setObjectPropValue_cases (os : Os σ) (w : World σ) (hdr : Buffer)
    (handle propCode : Nat) :
    (∃ p, w.ctx.getEntryByHandle handle = some p ∧
      exec (tally os) (setObjectPropValue hdr handle propCode) (w, []) =
        exec (tally os) (renameObject hdr p) (w, []) ∧
      trace (World.handle os) (setObjectPropValue hdr handle propCode) w =
        (w, .getCtx) :: trace (World.handle os) (renameObject hdr p) w) ∨
    (∃ code, code ≠ MTP_RESPONSE_OK ∧
      exec (tally os) (setObjectPropValue hdr handle propCode) (w, []) = (code, w, []) ∧
      ∀ step ∈ trace (World.handle os) (setObjectPropValue hdr handle propCode) w,
        step.2 = .getCtx) := by
  by_cases hno : handle = NO_HANDLE
  · rw [setObjectPropValue, if_pos hno]
    exact Or.inr ⟨_, by decide, rfl, by simp⟩
  by_cases hprop : propCode = MTP_PROPERTY_OBJECT_FILE_NAME
  · rw [setObjectPropValue, if_neg hno, if_pos hprop, exec_tally_getCtx,
      show ∀ f : MtpCtx → M Nat, trace (World.handle os) (M.getCtx >>= f) w =
        (w, .getCtx) :: trace (World.handle os) (f w.ctx) w from fun _ => rfl]
    cases hentry : w.ctx.getEntryByHandle handle with
    | none => exact Or.inr ⟨MTP_RESPONSE_GENERAL_ERROR, by decide, rfl, by simp⟩
    | some p =>
        dsimp only
        cases hcheck : w.ctx.checkHandleAccess (some p) 0 true with
        | none => exact Or.inl ⟨p, rfl, rfl, rfl⟩
        | some code => exact Or.inr ⟨code, checkHandleAccess_not_ok hcheck, rfl, by simp⟩
  · rw [setObjectPropValue, if_neg hno, if_neg hprop]
    exact Or.inr ⟨_, by decide, rfl, by simp⟩

theorem absolute_of_slots {storageId : Nat} {root : CString}
    (hroots : ∀ i root, (ctx.storages i).rootPath = some root → root.head? = some SLASH)
    (hroot : ctx.mtpGetStorageRoot storageId = some root) : root.head? = some SLASH := by
  rw [MtpCtx.mtpGetStorageRoot] at hroot
  obtain ⟨i, -, hi⟩ := Option.bind_eq_some_iff.mp hroot
  exact hroots i root hi

-- In every state that is reached and for every answer of the system, a request that
-- names an object calls nothing but rename on the files. Unless it succeeds, no rename
-- was made and the database is as before. If it does, one was made, from the place of
-- the object to the new name in the same folder, and the entry is found under its new
-- name if the bucket of the name took it.
theorem rename_all_or_nothing (hlinks : os.HasLinks tree) {start : World σ}
    (hstart : start.ctx.Initial) (hw : World.Reached os start w)
    (hlen : w.ctx.db.entryList.length < UINT32_SIZE - 2)
    (hroots : ∀ i root, (w.ctx.storages i).rootPath = some root → root.head? = some SLASH)
    (hdr : Buffer) (handle propCode : Nat) :
    let result := exec (tally os) (setObjectPropValue hdr handle propCode) (w, [])
    (∀ step ∈ trace (World.handle os) (setObjectPropValue hdr handle propCode) w,
      step.2.changes ≠ none → ∃ storageId path path2,
        step.2 = .act (.rename storageId path path2)) ∧
      (result.1 ≠ MTP_RESPONSE_OK → result.2.1.ctx = w.ctx ∧ result.2.2 = []) ∧
      (result.1 = MTP_RESPONSE_OK → ∃ p root path path2 name mem,
        w.ctx.getEntryByHandle handle = some p ∧
        w.ctx.mtpGetStorageRoot (w.ctx.entry p).storageId = some root ∧
        newFilename hdr = some name ∧ result.2.2 = [(path, path2)] ∧
        (∀ old new : FileName, old.val = (w.ctx.entry p).name → new.val = name →
          MovedIn (tree w.os) (root ++ w.ctx.folderPath p) path path2 old new) ∧
        Reindexed w.ctx.db result.2.1.ctx.db p name mem) := by
  obtain ⟨ho, hrecorded, hrising⟩ := rising_reached hstart hw
  have hrises := hrising (by omega)
  rcases setObjectPropValue_cases os w hdr handle propCode with
    ⟨p, hentry, hexec, htrace⟩ | ⟨code, hcode, hexec, htrace⟩
  · obtain ⟨hlive, -, hroot⟩ := ho.getEntryByHandle_live hentry
    obtain ⟨root, hroot⟩ := Option.isSome_iff_exists.mp hroot
    have hfuel := (hrecorded.handle_lt (by omega) hlive.1).2
    have hpath := fun name => MtpCtx.relativePath_pathBelow ho hrises hlive.1 hfuel name
    intro result
    have hresult : result = exec (tally os) (renameObject hdr p) (w, []) := hexec
    have hrun := exec_renameObject os hdr p w
    dsimp only at hrun
    rw [← hresult] at hrun
    refine ⟨fun step hstep hchanges => ?_, fun hfail => ?_, fun hok => ?_⟩
    · rw [htrace] at hstep
      rcases List.mem_cons.mp hstep with rfl | hstep
      · exact absurd rfl hchanges
      · exact ⟨_, onlyRenames_renameObject hdr p w step hstep hchanges⟩
    · rcases hrun with ⟨-, hctx, hmade⟩ | ⟨hok, -⟩
      · exact ⟨hctx, hmade⟩
      · exact absurd hok hfail
    · rcases hrun with ⟨herror, -⟩ | ⟨-, path, path2, name, mem, hmade, hrename⟩
      · rw [herror] at hok
        exact absurd hok (by decide)
      · refine ⟨p, root, path, path2, name, mem, hentry, hroot, hrename.named, hmade, ?_, ?_⟩
        · rintro old new hold rfl hexists
          have hclean : IsSanitized new.val := isSanitized_of_sanitizeName hrename.named
          refine places_of_rename hlinks hroot (absolute_of_slots hroots hroot) hclean hpath
            (hold ▸ hrename.source) hrename.target ?_
          obtain ⟨found, hfound⟩ := hexists
          obtain ⟨above, hfolder, hbelow⟩ := w.ctx.folderPath_eq p
          refine ⟨found, ?_⟩
          rw [hpath, hbelow, ← hfound, hfolder]
          simp
        · have hdb : result.2.1.ctx.db = w.ctx.db.renameEntry mem p name := by
            rw [hrename.ctx, MtpCtx.applyDb, MtpCtx.db, session_of_listed hlive.1]
            rfl
          rw [hdb]
          exact reindexed_renameEntry ho.stored hlive mem name
  · intro result
    have hresult : result = (code, w, []) := hexec
    rw [hresult]
    refine ⟨fun step hstep hchanges => ?_, fun _ => ⟨rfl, rfl⟩, fun hok => absurd hok hcode⟩
    rw [htrace step hstep] at hchanges
    exact absurd rfl hchanges

-- The files of the tree can be renamed as well.
def movingOs : Os (MemSystem × FileTree) where
  query q s := treeOs.query q s
  act a s :=
    match a with
    | .rename _ path path2 =>
      match s.2.lookup path, s.2.lookup path2 with
      | .ok (place, _), .ok (place2, _) =>
        if (s.2 place).isSome then
          (true, (s.1, fun other =>
            if other = place2 then s.2 place else if other = place then none else s.2 other))
        else
          (false, s)
      | _, _ => (false, s)
    | a => treeOs.act a s

theorem movingOs_hasLinks : movingOs.HasLinks Prod.snd where
  realpath := treeOs_hasLinks.realpath
  opened := treeOs_hasLinks.opened
  malloc _ := rfl
  entryMemory _ := rfl
  close _ _ := rfl
  setfsuid _ _ := rfl
  setfsgid _ _ := rfl

-- "/a/f" and the folder it is in.
def plainFiles (place : List FileName) : Option (Node FileName) :=
  if place = [A_FILE] then some .dir else if place = [A_FILE, F_FILE] then some .file else none

def plainStart : World (MemSystem × FileTree) :=
  ⟨startCtx (storagesOf [(A_ROOT, A_STORAGE, 0)]), sampleSystem, plainFiles⟩

-- The storage is listed.
def plainListed : World (MemSystem × FileTree) :=
  run (World.step movingOs) plainStart
    [.packet (commandPacket MTP_OPERATION_OPEN_SESSION [1]),
      .packet (commandPacket MTP_OPERATION_GET_OBJECT_HANDLES [0xFFFF0001, 0, 0])]

def renamedSample : Nat × World (MemSystem × FileTree) × List (CString × CString) :=
  exec (tally movingOs) (setObjectPropValue (namedValue [0x67]) 1 MTP_PROPERTY_OBJECT_FILE_NAME)
    (plainListed, [])

theorem rename_all_or_nothing_sample :
    renamedSample.1 = MTP_RESPONSE_OK ∧ ∃ p name mem,
      Reindexed plainListed.ctx.db renamedSample.2.1.ctx.db p name mem := by
  have hok : renamedSample.1 = MTP_RESPONSE_OK := by decide +kernel
  have hslots : ∀ i, ((plainListed.ctx.storages i).rootPath.all fun root =>
      root.head? == some SLASH) = true := by decide +kernel
  have hroots : ∀ i root, (plainListed.ctx.storages i).rootPath = some root →
      root.head? = some SLASH := by
    intro i root hroot
    have hi := hslots i
    rw [hroot] at hi
    exact beq_iff_eq.mp hi
  obtain ⟨-, -, hrename⟩ := @rename_all_or_nothing _ _ _ plainListed movingOs_hasLinks
    plainStart (initial_startCtx _) ⟨_, Or.inl rfl⟩ (by decide +kernel)
    hroots (namedValue [0x67]) 1 MTP_PROPERTY_OBJECT_FILE_NAME
  obtain ⟨p, -, -, -, name, mem, -, -, -, -, -, hindex⟩ := hrename hok
  exact ⟨hok, p, name, mem, hindex⟩

end Umtp
