import Umtp.Effects.Made

namespace Umtp

open Lib Lib.Prog Handles

variable {S : Cmd → Prop} {α : Type} {p : EntryPtr}

-- The commands that a path is built with.
structure Builds (S : Cmd → Prop) : Prop where
  getCtx : S .getCtx
  query : ∀ q, S (.query q)
  malloc : S (.act .malloc)

-- Those that the identity of a storage is taken with.
structure Identifies (S : Cmd → Prop) : Prop extends Builds S where
  setfsuid : ∀ uid, S (.act (.setfsuid uid))
  setfsgid : ∀ gid, S (.act (.setfsgid gid))

-- The commands that the file of an entry is opened with.
structure Opens (S : Cmd → Prop) : Prop extends Identifies S where
  openFile : ∀ storageId path flags, S (.act (.open storageId path flags))
  setFileDescriptor : ∀ p file, S (.db (.setFileDescriptor p file))

theorem uses_cmd {c : Cmd} (hc : S c) : Uses AnyAnswer S (M.cmd c) :=
  ⟨hc, fun _ _ => trivial⟩

theorem uses_act_of {a : Action} (ha : S (.act a)) : Uses AnyAnswer S (M.act a) :=
  uses_cmd ha

theorem uses_db_ {op : DbOp} (hop : S (.db op)) : Uses AnyAnswer S (M.db_ op) :=
  uses_bind (uses_cmd hop) fun _ => uses_pure ()

theorem Builds.getCtx_bind (h : Builds S) {f : MtpCtx → M α}
    (hf : ∀ ctx, Uses AnyAnswer S (f ctx)) :
    Uses AnyAnswer S (M.getCtx >>= f) :=
  uses_bind (uses_cmd h.getCtx) hf

theorem Builds.resolveNewObject (h : Builds S) (rootPath fullPath name : CString) :
    Uses AnyAnswer S (resolveNewObject rootPath fullPath name) := by
  refine uses_bind (uses_cmd (h.query _)) fun found => ?_
  split
  · refine uses_bind (uses_act_of h.malloc) fun memory => ?_
    grind
  · exact uses_pure _

theorem Builds.buildFullPathNamed (h : Builds S) (rootPath : Option CString) (p : EntryPtr)
    (name : CString) : Uses AnyAnswer S (buildFullPathNamed rootPath p name) := by
  refine h.getCtx_bind fun ctx => uses_bind (uses_act_of h.malloc) fun memory => ?_
  split
  · dsimp only
    split
    · refine uses_bind (uses_cmd (h.query _)) fun found => ?_
      split
      · exact uses_pure _
      · exact h.resolveNewObject _ _ _
      · exact uses_pure _
    · exact uses_pure _
  · exact uses_pure _

theorem Builds.entryPath (h : Builds S) (p : EntryPtr) : Uses AnyAnswer S (entryPath p) :=
  h.getCtx_bind fun _ => h.getCtx_bind fun _ => h.buildFullPathNamed _ _ _

theorem Identifies.setGiduid (h : Identifies S) (uid gid : Int) : Uses AnyAnswer S
    (setGiduid uid gid) := by
  have huid : Uses AnyAnswer S (M.act (.setfsuid uid)) := uses_act_of (h.setfsuid uid)
  have hgid : Uses AnyAnswer S (M.act (.setfsgid gid)) := uses_act_of (h.setfsgid gid)
  unfold Umtp.setGiduid
  grind

theorem Identifies.restoreGiduid (h : Identifies S) : Uses AnyAnswer S restoreGiduid :=
  h.getCtx_bind fun _ => uses_bind (h.setGiduid _ _) fun _ => uses_pure _

theorem Identifies.setStorageGiduid (h : Identifies S) (storageId : Nat) :
    Uses AnyAnswer S (setStorageGiduid storageId) := by
  refine h.getCtx_bind fun ctx => ?_
  split
  · exact h.setGiduid _ _
  · exact uses_pure _

theorem Opens.entryOpen (h : Opens S) (p : EntryPtr) (flags : OpenFlags) :
    Uses AnyAnswer S (entryOpen p flags) := by
  have hnext : ∀ _ : Unit, Uses AnyAnswer S (do
      let ctx ← M.getCtx
      return (ctx.entry p).fileDescriptor) :=
    fun _ => h.getCtx_bind fun _ => uses_pure _
  refine h.getCtx_bind fun ctx => ?_
  split
  · exact uses_pure _
  · refine uses_bind (h.entryPath p) fun found => ?_
    dsimp only
    split
    · refine uses_bind (h.setStorageGiduid _) fun set => ?_
      split
      · exact uses_bind (uses_act_of (h.openFile _ _ _)) fun file =>
          uses_bind (uses_db_ (h.setFileDescriptor _ _)) fun _ =>
            uses_bind h.restoreGiduid hnext
      · exact uses_bind h.restoreGiduid hnext
    · exact hnext ()

end Umtp
