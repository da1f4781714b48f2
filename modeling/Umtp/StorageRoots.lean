import Umtp.DeletedPlaces

namespace Umtp

open Lib Lib.Prog Handles Text

-- The directory of a storage is at the place.
def MtpCtx.HasRootAt (ctx : MtpCtx) (files : FileTree) (place : List FileName) : Prop :=
  ∃ i root left, (ctx.storages i).rootPath = some root ∧ files.lookup root = .ok (place, left)

-- The directory holds two names at least.
def HoldsTwo (files : FileTree) (place : List FileName) : Prop :=
  ∃ name name' : FileName, name ≠ name' ∧ (files (place ++ [name])).isSome = true ∧
    (files (place ++ [name'])).isSome = true

-- The directory is what it was, and it was not emptied as a whole.
def KeepsFolder (start files : FileTree) (place : List FileName) : Prop :=
  files place = start place ∧ (HoldsTwo start place → ∃ name : FileName,
    (start (place ++ [name])).isSome = true ∧ files (place ++ [name]) = start (place ++ [name]))

namespace MtpCtx

-- All that can be removed with the object is inside, and what is inside is no directory
-- of a storage, nor all that there is in one. The root entry of a storage cannot go.
structure DeletesAside (ctx : MtpCtx) (files : FileTree) (inside : List FileName → Prop)
    (p : EntryPtr) : Prop where
  deletes : ctx.DeletesInside files inside p
  roots : ∀ place, ctx.HasRootAt files place → ¬inside place ∧ (HoldsTwo files place →
    ∃ name : FileName, (files (place ++ [name])).isSome = true ∧ ¬inside (place ++ [name]))
  entry : (ctx.entry p).handle = 0 → ¬ctx.Vanishes files inside p

-- Whatever the system answers, the directories of the storages and their entries stay.
def RootsKept (ctx : MtpCtx) (hdr : Buffer) (files : FileTree) : Prop :=
  ∀ (σ : Type) (os : Os σ) (tree : σ → FileTree), os.HasDirectories tree → ∀ s, tree s = files →
    let w' := (exec (World.handle os) (mtpOpDeleteObject hdr) ⟨ctx, s⟩).2
    (∀ place, ctx.HasRootAt files place → KeepsFolder files (tree w'.os) place) ∧
      ∀ q, (ctx.entry q).handle = 0 → w'.ctx.entry q = ctx.entry q

end MtpCtx

theorem keepsFolder_of_cleared {start files : FileTree} {inside : List FileName → Prop}
    {place : List FileName} (h : start.Cleared inside files) (hplace : ¬inside place)
    (hnames : HoldsTwo start place → ∃ name : FileName,
      (start (place ++ [name])).isSome = true ∧ ¬inside (place ++ [name])) :
    KeepsFolder start files place := by
  have hkept : ∀ place, ¬inside place → files place = start place := by
    intro place hout
    by_contra hchanged
    exact hout (h.changed place hchanged)
  refine ⟨hkept place hplace, fun htwo => ?_⟩
  obtain ⟨name, hsome, hout⟩ := hnames htwo
  exact ⟨name, hsome, hkept _ hout⟩

section Samples

example : (deleting nestedTree [0, 1] 0).ctx.getEntryByHandle 0 = some ⟨1, 1023⟩ := by
  decide +kernel

theorem rootPath_nestedTree (i : Fin MAX_STORAGE_NB) {root : CString}
    (h : ((deleting nestedTree [0, 1] 1).ctx.storages i).rootPath = some root) : root = A_ROOT := by
  have hall : ∀ i, ((deleting nestedTree [0, 1] 1).ctx.storages i).rootPath = none ∨
      ((deleting nestedTree [0, 1] 1).ctx.storages i).rootPath = some A_ROOT := by
    decide +kernel
  rcases hall i with hnone | hsome
  · rw [hnone] at h
    cases h
  · exact (Option.some.inj (hsome.symm.trans h)).symm

-- "/a/d" lies beside "/a", which holds nothing else.
theorem deletesAside_nestedTree :
    (deleting nestedTree [0, 1] 1).ctx.DeletesAside nestedTree
      ((deleting nestedTree [0, 1] 1).ctx.IsWithin nestedTree ⟨1, 1022⟩) ⟨1, 1022⟩ := by
  refine ⟨deletesInside_nestedTree, fun place hplace => ?_,
    fun hzero => absurd hzero (by decide +kernel)⟩
  obtain ⟨i, root, left, hroot, hlookup⟩ := hplace
  have hleads : FileTree.lookup nestedTree A_ROOT = .ok ([A_FILE], 40) := by decide +kernel
  rw [rootPath_nestedTree i hroot, hleads] at hlookup
  cases hlookup
  constructor
  · rintro ⟨top, htop, hwithin⟩
    obtain rfl := namedPlace_nestedTree.unique htop
    revert hwithin
    decide +kernel
  · rintro ⟨name, name', hne, hsome, hsome'⟩
    have hone : ∀ name : FileName, (nestedTree ([A_FILE] ++ [name])).isSome = true →
        name = D_FILE := by
      intro name h
      by_contra hother
      simp [nestedTree, hother] at h
    exact absurd ((hone name hsome).trans (hone name' hsome').symm) hne

end Samples

end Umtp
