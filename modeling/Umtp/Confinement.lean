import Umtp.Lib.Components
import Umtp.MemOs

namespace Umtp

open Lib Lib.Prog Handles Text

variable {σ : Type} {os : Os σ} {fs : CString → Except Errno CString}

-- The file systems do not change during a call: `fs` is their `realpath`.
def Os.Resolves (os : Os σ) (fs : CString → Except Errno CString) : Prop :=
  ∀ path s, os.query (.realpath path) s = fs path

-- Where an object is found through the links, or where it would be made.
def resolution (fs : CString → Except Errno CString) (fullPath name : CString) :
    Option CString :=
  match fs fullPath with
  | .ok path => some path
  | .error .ENOENT =>
    match fs (fullPath.take (fullPath.length - name.length)) with
    | .ok parentPath => (sanitizeName name name.length).map (parentPath ++ SLASH :: ·)
    | .error _ => none
  | .error _ => none

theorem checkRoot_eq_some {rootPath path found : CString} :
    checkRoot rootPath path = some found ↔ path = found ∧ rootPath <+: path := by
  rw [checkRoot]
  split
  · rename_i hunder
    simp [List.isPrefixOf_iff_prefix.mp hunder]
  · rename_i hunder
    simp [mt List.isPrefixOf_iff_prefix.mpr hunder]

-- A call fails when its memory allocations do. Otherwise it checks the
-- resolution of the object.
theorem exec_resolveNewObject (root fullPath name : CString) {w : World σ}
    (hfs : ∀ path, os.query (.realpath path) w.os = fs path)
    (herror : fs fullPath = .error .ENOENT) :
    (exec (World.handle os) (resolveNewObject root fullPath name) w).1 = none ∧
        (os.act .malloc w.os).1 = false ∨
      (exec (World.handle os) (resolveNewObject root fullPath name) w).1 =
        (resolution fs fullPath name).bind (checkRoot root) := by
  rw [resolveNewObject, exec_query_bind, hfs, resolution, herror]
  dsimp only
  cases fs (fullPath.take (fullPath.length - name.length)) with
  | error errno => exact Or.inr rfl
  | ok parentPath =>
      dsimp only
      rw [exec_act_bind]
      cases hmem : (os.act .malloc w.os).1 with
      | false => exact Or.inl ⟨rfl, rfl⟩
      | true =>
          refine Or.inr ?_
          cases sanitizeName name name.length <;> rfl

theorem exec_buildFullPathNamed (root name : CString) (p : EntryPtr) {w : World σ}
    (hfs : ∀ path, os.query (.realpath path) (os.act .malloc w.os).2 = fs path) :
    (exec (World.handle os) (buildFullPathNamed (some root) p name) w).1 = none ∧
        (∃ s, (os.act .malloc s).1 = false) ∨
      (exec (World.handle os) (buildFullPathNamed (some root) p name) w).1 =
        (resolution fs (root ++ w.ctx.relativePath p name) name).bind (checkRoot root) := by
  rw [buildFullPathNamed, exec_getCtx_bind, exec_act_bind]
  cases hmem : (os.act .malloc w.os).1 with
  | false => exact Or.inl ⟨rfl, _, hmem⟩
  | true =>
      rw [if_pos rfl]
      dsimp only
      rw [exec_query_bind, hfs]
      cases hreal : fs (root ++ w.ctx.relativePath p name) with
      | ok path => exact Or.inr (by rw [resolution, hreal]; rfl)
      | error errno =>
          by_cases herrno : errno = .ENOENT
          · subst herrno
            rcases exec_resolveNewObject (w := ⟨w.ctx, _⟩) root _ name hfs hreal
              with ⟨hnone, hm⟩ | heq
            · exact Or.inl ⟨hnone, _, hm⟩
            · exact Or.inr heq
          · have hnone : resolution fs (root ++ w.ctx.relativePath p name) name = none := by
              rw [resolution, hreal]
              cases errno with
              | ENOENT => exact absurd rfl herrno
              | _ => rfl
            rw [hnone]
            refine Or.inr ?_
            cases errno with
            | ENOENT => exact absurd rfl herrno
            | _ => rfl

-- Every path that is built for the object lies in the subtree of the root.
def Confined (fs : CString → Except Errno CString) (ctx : MtpCtx) (root name : CString)
    (p : EntryPtr) : Prop :=
  ∀ (σ : Type) (os : Os σ), os.Resolves fs → ∀ s path,
    (exec (World.handle os) (buildFullPathNamed (some root) p name) ⟨ctx, s⟩).1 = some path →
      InSubtree SLASH root path

-- Paths are confined to the root unless the links lead to a sibling of it whose
-- name goes on with other characters.
theorem confined_iff_no_overrun (fs : CString → Except Errno CString) (ctx : MtpCtx)
    (root name : CString) (hroot : Canonical SLASH root) (p : EntryPtr) :
    Confined fs ctx root name p ↔
      ∀ path ∈ resolution fs (root ++ ctx.relativePath p name) name,
        ¬ Overruns SLASH root path := by
  constructor
  · intro hconfined path hpath hover
    have hfs : (linkedOs fs).Resolves fs := fun _ _ => rfl
    have hbuilt : (exec (World.handle (linkedOs fs)) (buildFullPathNamed (some root) p name)
        ⟨ctx, sampleSystem⟩).1 = some path := by
      rcases exec_buildFullPathNamed (w := ⟨ctx, sampleSystem⟩) root name p (fun _ => hfs _ _) with
        ⟨-, s, hmem⟩ | heq
      · exact absurd hmem (by simp [linkedOs, MemSystem.act])
      · rw [heq, Option.mem_def.mp hpath, Option.bind_some]
        exact checkRoot_eq_some.mpr ⟨rfl, hover.2.1⟩
    exact (hroot.inSubtree_iff hover.2.1).mp (hconfined _ _ hfs _ _ hbuilt) hover
  · intro hno σ os hfs s path hpath
    rcases exec_buildFullPathNamed (w := ⟨ctx, s⟩) root name p (fun _ => hfs _ _) with
      ⟨hnone, -⟩ | heq
    · rw [hnone] at hpath
      simp at hpath
    · rw [heq] at hpath
      obtain ⟨found, hfound, hcheck⟩ := Option.bind_eq_some_iff.mp hpath
      obtain ⟨rfl, hunder⟩ := checkRoot_eq_some.mp hcheck
      exact (hroot.inSubtree_iff hunder).mpr (hno found hfound)

section Samples

theorem canonical_A_ROOT : Canonical SLASH A_ROOT :=
  Or.inr ⟨[[0x61]], by decide, by decide, by decide⟩

-- The file system after the storage "/a" was listed.
def listedA : MtpCtx :=
  (run (World.step memOs) twoStorages [openSession, getObjectHandles 0xFFFF0001 0]).ctx

theorem confined_iff_no_overrun_sample : Confined .ok listedA A_ROOT F_NAME ⟨1, 1021⟩ :=
  (confined_iff_no_overrun .ok listedA A_ROOT F_NAME canonical_A_ROOT ⟨1, 1021⟩).mpr
    (by decide +kernel)

-- "/a/f" is a link to "/ab/f".
theorem not_confined_of_sibling :
    ¬ Confined (fun path => if path = A_ROOT ++ SLASH :: F_NAME
        then .ok ([SLASH, 0x61, 0x62] ++ SLASH :: F_NAME) else .ok path)
      listedA A_ROOT F_NAME ⟨1, 1021⟩ := by
  intro h
  have hin := h MemSystem (linkedOs _) (fun _ _ => rfl) sampleSystem
    ([SLASH, 0x61, 0x62] ++ SLASH :: F_NAME) (by decide +kernel)
  revert hin
  decide +kernel

end Samples

end Umtp
