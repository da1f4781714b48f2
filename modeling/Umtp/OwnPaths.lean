import Umtp.Lib.Walks
import Umtp.Sanitize
import Umtp.Uploads

namespace Umtp

open Lib Lib.Prog Handles Text

variable {σ : Type} {os : Os σ} {tree : σ → FileTree} {ctx : MtpCtx} {w : World σ}

-- The entry and the entries above it up to the top, all of them live.
inductive Lineage (ctx : MtpCtx) : EntryPtr → List EntryPtr → Prop where
  | top {p : EntryPtr} (h : (ctx.entry p).parent = 0 ∨ (ctx.entry p).parent = NO_HANDLE) :
    Lineage ctx p [p]
  | under {p q : EntryPtr} {chain : List EntryPtr} (hzero : (ctx.entry p).parent ≠ 0)
    (hno : (ctx.entry p).parent ≠ NO_HANDLE)
    (hq : ctx.getEntryByHandle (ctx.entry p).parent = some q) (above : Lineage ctx q chain) :
    Lineage ctx p (p :: chain)

namespace Lineage

variable {p : EntryPtr} {chain : List EntryPtr}

theorem ne_nil (h : Lineage ctx p chain) : ∃ above, chain = p :: above := by
  cases h with
  | top _ => exact ⟨[], rfl⟩
  | under _ _ _ above => exact ⟨_, rfl⟩

theorem unique (h : Lineage ctx p chain) {chain' : List EntryPtr} (h' : Lineage ctx p chain') :
    chain = chain' := by
  induction h generalizing chain' with
  | top htop =>
      cases h' with
      | top _ => rfl
      | under hzero hno _ _ => exact absurd htop (not_or.mpr ⟨hzero, hno⟩)
  | under hzero hno hq _ ih =>
      cases h' with
      | top htop => exact absurd htop (not_or.mpr ⟨hzero, hno⟩)
      | under _ _ hq' above =>
          obtain rfl := Option.some.inj (hq.symm.trans hq')
          rw [ih above]

-- Every member has the rest as its lineage.
theorem suffix (h : Lineage ctx p chain) {r : EntryPtr} (hr : r ∈ chain) :
    ∃ rest, rest <:+ chain ∧ Lineage ctx r rest := by
  induction h with
  | top htop =>
      obtain rfl := List.mem_singleton.mp hr
      exact ⟨_, List.suffix_refl _, .top htop⟩
  | under hzero hno hq above ih =>
      rcases List.mem_cons.mp hr with rfl | hr
      · exact ⟨_, List.suffix_refl _, .under hzero hno hq above⟩
      · obtain ⟨rest, hrest, hlineage⟩ := ih hr
        exact ⟨rest, hrest.trans (List.suffix_cons _ _), hlineage⟩

theorem nodup (h : Lineage ctx p chain) : chain.Nodup := by
  induction h with
  | top _ => simp
  | under hzero hno hq above ih =>
      refine List.nodup_cons.mpr ⟨fun hmem => ?_, ih⟩
      obtain ⟨rest, hrest, hlineage⟩ := above.suffix hmem
      have hlen := hrest.length_le
      rw [hlineage.unique (.under hzero hno hq above), List.length_cons] at hlen
      omega

theorem mem_entryList (h : Lineage ctx p chain) (ho : ctx.Ordered) (hp : p ∈ ctx.db.entryList) :
    ∀ q ∈ chain, q ∈ ctx.db.entryList := by
  induction h with
  | top _ => simpa using hp
  | under _ _ hq _ ih =>
      intro r hr
      rcases List.mem_cons.mp hr with rfl | hr
      · exact hp
      · exact ih (ho.getEntryByHandle_live hq).1.1 r hr

-- The climb goes through the whole lineage when it has the turns.
theorem climb_eq (h : Lineage ctx p chain) {fuel : Nat} (hfuel : chain.length ≤ fuel + 1) :
    ctx.climb fuel p = chain := by
  induction h generalizing fuel with
  | top htop =>
      cases fuel with
      | zero => rfl
      | succ fuel => rw [MtpCtx.climb, if_neg fun hup => htop.elim hup.1 hup.2]
  | under hzero hno hq above ih =>
      obtain ⟨rest, rfl⟩ := above.ne_nil
      rw [List.length_cons, List.length_cons] at hfuel
      obtain ⟨fuel, rfl⟩ := Nat.exists_eq_succ_of_ne_zero (by omega : fuel ≠ 0)
      rw [MtpCtx.climb_under hzero hno hq, ih (by rw [List.length_cons]; omega)]

-- It has: no entry is passed twice.
theorem climb_entryList (h : Lineage ctx p chain) (ho : ctx.Ordered)
    (hp : p ∈ ctx.db.entryList) : ctx.climb ctx.db.entryList.length p = chain := by
  have hle := (h.nodup.subperm (h.mem_entryList ho hp)).length_le
  exact h.climb_eq (by omega)

theorem relativePath_eq (h : Lineage ctx p chain) (ho : ctx.Ordered)
    (hp : p ∈ ctx.db.entryList) :
    ctx.relativePath p (ctx.entry p).name =
      (chain.reverse.map fun q => (ctx.entry q).name).flatMap (SLASH :: ·) := by
  rw [MtpCtx.relativePath, h.climb_entryList ho hp, List.flatMap_map]
  refine List.flatMap_congr fun q _ => ?_
  by_cases hq : q = p
  · rw [if_pos hq, hq]
  · rw [if_neg hq]

end Lineage

-- The components of a path that is resolved without links

theorem components_below {names : List CString} (hnames : ∀ name ∈ names, IsFileName name)
    (path : CString) :
    components SLASH (path ++ names.flatMap (SLASH :: ·)) = components SLASH path ++ names := by
  induction names generalizing path with
  | nil => simp
  | cons name names ih =>
      have hname := hnames name List.mem_cons_self
      have hone := components_name hname.1 hname.2.1 [] (by simp)
      rw [List.append_nil] at hone
      rw [List.flatMap_cons, ← List.append_assoc,
        ih fun n hn => hnames n (List.mem_cons_of_mem _ hn),
        components_append_sep, hone]
      simp [components]

-- The parts that a path is walked by are its components.
theorem intos_partsOf {path : CString} (hall : ∀ c ∈ components SLASH path, IsFileName c) :
    .up ∉ partsOf path ∧ (Tree.intos (partsOf path)).map Subtype.val = components SLASH path := by
  have hpart : ∀ c ∈ path.splitOnP (· == SLASH), c ≠ [] → IsFileName c := fun c hc hne =>
    hall c (List.mem_filter.mpr ⟨hc, by simpa using hne⟩)
  rw [partsOf, components]
  generalize path.splitOnP (· == SLASH) = parts at hpart
  induction parts with
  | nil => exact ⟨by simp, rfl⟩
  | cons c parts ih =>
      obtain ⟨hup, hsame⟩ := ih fun d hd => hpart d (List.mem_cons_of_mem _ hd)
      rw [List.map_cons, List.filter_cons]
      by_cases hnil : c = []
      · subst hnil
        have hstay : partOf [] = .stay := by decide
        rw [hstay]
        exact ⟨by simpa using hup, hsame⟩
      · have hname := hpart c List.mem_cons_self hnil
        have hinto : partOf c = .into ⟨c, hname⟩ := dif_pos hname
        rw [hinto, if_pos (by simpa using hnil)]
        refine ⟨by simpa using hup, ?_⟩
        rw [← hsame]
        rfl

-- Without links a path resolves to itself.
theorem components_of_realpath {tree : FileTree} (hflat : tree.Flat) {path found : CString}
    (hall : ∀ c ∈ components SLASH path, IsFileName c) (h : tree.realpath path = .ok found) :
    components SLASH found = components SLASH path := by
  obtain ⟨place, left, hlookup, -, rfl⟩ := FileTree.lookup_of_realpath h
  obtain ⟨hdown, hnames⟩ := intos_partsOf hall
  rw [components_render, Tree.walk_flat hflat hdown hlookup, List.nil_append, hnames]

def MtpCtx.nameOf (ctx : MtpCtx) (p : EntryPtr) : CString := (ctx.entry p).name

-- The components that name an entry under a root.
def MtpCtx.ownComponents (ctx : MtpCtx) (root : CString) (chain : List EntryPtr) : List CString :=
  components SLASH root ++ chain.reverse.map ctx.nameOf

-- The path of an entry is its own, or, where nothing is found under its name, the
-- one of its sanitized name.
theorem full_path_names_object (hlinks : os.HasLinks tree) (hflat : (tree w.os).Flat)
    (ho : w.ctx.Ordered) (rootPlace : List FileName) {p : EntryPtr} {chain : List EntryPtr}
    (hp : p ∈ w.ctx.db.entryList) (hlineage : Lineage w.ctx p chain)
    (hnames : ∀ q ∈ chain, IsFileName (w.ctx.nameOf q)) {path : CString}
    (hpath : (exec (World.handle os) (buildFullPath (some (render rootPlace)) p) w).1 =
      some path) :
    let full := render rootPlace ++ w.ctx.relativePath p (w.ctx.nameOf p)
    (tree w.os).realpath full = .ok path ∧
        components SLASH path = w.ctx.ownComponents (render rootPlace) chain ∨
      (tree w.os).realpath full = .error .ENOENT ∧
        ∃ sanitized, sanitizeName (w.ctx.nameOf p) (w.ctx.nameOf p).length = some sanitized ∧
          components SLASH path =
            w.ctx.ownComponents (render rootPlace) chain.tail ++ [sanitized] := by
  intro full
  obtain ⟨above, habove⟩ := hlineage.ne_nil
  have habsolute : (render rootPlace).head? = some SLASH :=
    head_of_canonical (canonical_render rootPlace)
  have hroot : ∀ c ∈ components SLASH (render rootPlace), IsFileName c := by
    rw [components_render]
    intro c hc
    obtain ⟨name, -, rfl⟩ := List.mem_map.mp hc
    exact name.property
  have hchain : ∀ names : List EntryPtr, (∀ q ∈ names, q ∈ chain) →
      ∀ c ∈ names.reverse.map w.ctx.nameOf, IsFileName c := by
    intro names hsub c hc
    obtain ⟨q, hq, rfl⟩ := List.mem_map.mp hc
    exact hnames q (hsub q (List.mem_reverse.mp hq))
  have hfull : full = render rootPlace ++ (chain.reverse.map w.ctx.nameOf).flatMap (SLASH :: ·) :=
    congrArg (render rootPlace ++ ·) (hlineage.relativePath_eq ho hp)
  have hown : components SLASH full = w.ctx.ownComponents (render rootPlace) chain := by
    rw [hfull, components_below (hchain chain fun _ hq => hq)]
    rfl
  -- the path of the folder that the fallback resolves
  obtain ⟨front, hfrontDef⟩ : ∃ front, front =
    render rootPlace ++ (above.reverse.map w.ctx.nameOf).flatMap (SLASH :: ·) ++ [SLASH] := ⟨_, rfl⟩
  have hfront : full = front ++ w.ctx.nameOf p := by
    rw [hfull, hfrontDef, habove]
    simp
  have hfolder : components SLASH front = w.ctx.ownComponents (render rootPlace) above := by
    rw [hfrontDef, components_append_sep,
      components_below (hchain above fun q hq => habove ▸ List.mem_cons_of_mem _ hq)]
    simp [MtpCtx.ownComponents, components]
  have hbuilt := exec_buildFullPath hlinks habsolute hpath
  obtain ⟨found, hfound, hcheck⟩ := Option.bind_eq_some_iff.mp hbuilt
  obtain ⟨rfl, -⟩ := checkRoot_eq_some.mp hcheck
  rw [resolution] at hfound
  cases hreal : (tree w.os).realpath full with
  | ok found' =>
      have hsame : found' = found := by
        change (tree w.os).realpath (_ ++ w.ctx.relativePath p (w.ctx.entry p).name) = _ at hreal
        rw [hreal] at hfound
        exact Option.some.inj hfound
      subst hsame
      refine Or.inl ⟨rfl, ?_⟩
      rw [components_of_realpath hflat ?_ hreal, hown]
      rw [hown]
      intro c hc
      rcases List.mem_append.mp hc with hc | hc
      · exact hroot c hc
      · exact hchain chain (fun _ hq => hq) c hc
  | error errno =>
      change (tree w.os).realpath (_ ++ w.ctx.relativePath p (w.ctx.entry p).name) = _ at hreal
      rw [hreal] at hfound
      cases errno with
      | ENOENT =>
          refine Or.inr ⟨rfl, ?_⟩
          dsimp only at hfound
          have hcut : (render rootPlace ++ w.ctx.relativePath p (w.ctx.entry p).name).take
              ((render rootPlace ++ w.ctx.relativePath p (w.ctx.entry p).name).length -
                (w.ctx.entry p).name.length) = front := by
            change full.take (full.length - (w.ctx.nameOf p).length) = front
            rw [hfront, List.length_append, Nat.add_sub_cancel, List.take_left]
          rw [hcut] at hfound
          cases hparent : (tree w.os).realpath front with
          | error errno =>
              rw [hparent] at hfound
              cases hfound
          | ok parentPath =>
              rw [hparent] at hfound
              obtain ⟨sanitized, hsanitized, rfl⟩ := Option.map_eq_some_iff.mp hfound
              have hname := (isSanitized_of_sanitizeName hsanitized).isFileName
              have hone := components_name hname.1 hname.2.1 [] (by simp)
              rw [List.append_nil] at hone
              refine ⟨sanitized, hsanitized, ?_⟩
              rw [components_append_sep, hone, components_of_realpath hflat ?_ hparent, hfolder,
                habove]
              · rfl
              · rw [hfolder]
                intro c hc
                rcases List.mem_append.mp hc with hc | hc
                · exact hroot c hc
                · exact hchain above (fun q hq => habove ▸ List.mem_cons_of_mem _ hq) c hc
      | _ => cases hfound

section Samples

def SPACED_NAME : CString := F_NAME ++ [SPACE]

-- The only object of the storage was "/a/f " when it was listed.
def spacedSystem : MemSystem :=
  { sampleSystem with nodes := [(A_ROOT, none), (A_ROOT ++ SLASH :: SPACED_NAME, some [])] }

def listedSpaced : MtpCtx :=
  (run (World.step memOs) ⟨startCtx (storagesOf [(A_ROOT, A_STORAGE, 0)]), spacedSystem⟩
    [openSession, getObjectHandles 0xFFFF0001 0]).ctx

example : listedSpaced.relativePath ⟨1, 1022⟩ (listedSpaced.nameOf ⟨1, 1022⟩) =
    SLASH :: SPACED_NAME := by decide +kernel

-- Now the directory "/a" has a file with the name and nothing else.
def plainTree (name : FileName) (place : List FileName) : Option (Node FileName) :=
  if place = [A_FILE] then some .dir else if place = [A_FILE, name] then some .file else none

theorem flat_plainTree (name : FileName) : Tree.Flat (plainTree name) := by
  intro place absolute target h
  rw [plainTree] at h
  split at h
  · cases h
  · split at h
    · cases h
    · cases h

def spaced (name : FileName) : World (MemSystem × FileTree) :=
  ⟨listedSpaced, sampleSystem, plainTree name⟩

def SPACED_FILE : FileName := ⟨SPACED_NAME, by decide⟩

theorem ordered_listedSpaced : listedSpaced.Ordered :=
  (@wellGrown_run _ memOs ⟨startCtx (storagesOf [(A_ROOT, A_STORAGE, 0)]), spacedSystem⟩
    (initial_startCtx _).wellGrown [openSession, getObjectHandles 0xFFFF0001 0]).ordered

theorem lineage_listedSpaced : Lineage listedSpaced ⟨1, 1022⟩ [⟨1, 1022⟩] :=
  .top (Or.inl (by decide +kernel))

-- The object is still there.
theorem full_path_names_object_sample :
    FileTree.realpath (plainTree SPACED_FILE) (render [A_FILE] ++
        listedSpaced.relativePath ⟨1, 1022⟩ (listedSpaced.nameOf ⟨1, 1022⟩)) =
          .ok (A_ROOT ++ SLASH :: SPACED_NAME) ∧
      components SLASH (A_ROOT ++ SLASH :: SPACED_NAME) =
        listedSpaced.ownComponents (render [A_FILE]) [⟨1, 1022⟩] := by
  have hpath := @full_path_names_object _ _ _ (spaced SPACED_FILE) treeOs_hasLinks
    (flat_plainTree _) ordered_listedSpaced [A_FILE] ⟨1, 1022⟩ [⟨1, 1022⟩] (by decide +kernel)
    lineage_listedSpaced (by decide +kernel) (A_ROOT ++ SLASH :: SPACED_NAME) (by decide +kernel)
  refine hpath.resolve_right fun h => ?_
  have hmissing := h.1
  revert hmissing
  decide +kernel

-- The object is gone, and its path is the one of "/a/f".
theorem full_path_of_other_object :
    Tree.Flat (plainTree F_FILE) ∧ Lineage listedSpaced ⟨1, 1022⟩ [⟨1, 1022⟩] ∧
      listedSpaced.nameOf ⟨1, 1022⟩ = SPACED_NAME ∧
      (exec (World.handle treeOs) (buildFullPath (some (render [A_FILE])) ⟨1, 1022⟩)
        (spaced F_FILE)).1 = some (A_ROOT ++ SLASH :: F_NAME) ∧
      plainTree F_FILE [A_FILE, F_FILE] = some .file ∧
      components SLASH (A_ROOT ++ SLASH :: F_NAME) ≠
        listedSpaced.ownComponents (render [A_FILE]) [⟨1, 1022⟩] :=
  ⟨flat_plainTree _, lineage_listedSpaced, by decide +kernel, by decide +kernel, by decide +kernel,
    by decide +kernel⟩

end Samples

end Umtp
