import ClipFerry.Capture.TreeCapture
import ClipFerry.Foundation.LinkWalk
import ClipFerry.VirtualTree.Containment

namespace ClipFerry.Capture

open VirtualTree Local Product Checked LinkWalk

variable {files : FileSystem} {lowercase : Text → Text} {path virtualPath : Text}
  {snapshot : FileSnapshot} {state state' mid : CaptureState} {nodes rest : List FileSnapshot}

/-! What is found on disk, as a graph of snapshots: a directory is told by its identity and lists
its children in case-folded order. -/

structure Listing (files : FileSystem) (lowercase : Text → Text) (parent : FileSnapshot)
    (children : List FileSnapshot) (listed sorted : List ChildEntry) : Prop where
  read : files.readChildren parent.path = .ok listed
  perm : sorted.Perm listed
  order : sorted.Pairwise (CaseFolded lowercase)
  captured : List.Forall₂ (fun child snapshot => files.captureAt child.2
    (childVirtualPath parent.fileName child.1) true = .ok snapshot) sorted children

def treeGraph (files : FileSystem) (lowercase : Text → Text) :
    LinkGraph FileSnapshot FileIdentity where
  identity snapshot := if snapshot.isDirectory = true then some snapshot.identity else none
  listing parent children := ∃ listed sorted, Listing files lowercase parent children listed sorted

def CapturedRoot (files : FileSystem) (root : Text) (snapshot : FileSnapshot) : Prop :=
  ∃ rootName, files.fileName root = some rootName ∧
    validateVirtualFileName rootName = .ok () ∧ files.captureAt root rootName true = .ok snapshot

def SelectedRoot (files : FileSystem) (path : List UInt16) (snapshot : FileSnapshot) : Prop :=
  ∃ root, Utf16.decode path = some root ∧ CapturedRoot files root snapshot

theorem windows_eq_ok {α : Type} {result : Except HResult α} {value : α} :
    windows result = .ok value ↔ result = .ok value := by
  cases result <;> simp [windows, Except.mapError]

theorem rejecting_eq_ok {α : Type} {result : Except CaptureRejection α} {value : α} :
    rejecting result = .ok value ↔ result = .ok value := by
  cases result <;> simp [rejecting, Except.mapError]

theorem toStr_eq_ok {name : List UInt16} {text : Text} :
    toStr name = .ok text ↔ Utf16.decode name = some text := by
  rw [toStr]
  cases Utf16.decode name <;> simp

theorem captureAt_ok {allowDirectory : Bool}
    (h : files.captureAt path virtualPath allowDirectory = .ok snapshot) :
    snapshot.path = path ∧ snapshot.fileName = virtualPath := by
  obtain ⟨-, h⟩ := guard_eq_ok.mp h
  obtain ⟨⟨⟩, -, h⟩ := bind_eq_ok.mp h
  obtain ⟨wide, -, h⟩ := bind_eq_ok.mp h
  obtain ⟨attributes, -, h⟩ := bind_eq_ok.mp h
  obtain ⟨⟨⟩, -, h⟩ := bind_eq_ok.mp h
  obtain ⟨file, -, h⟩ := bind_eq_ok.mp h
  obtain ⟨information, -, h⟩ := bind_eq_ok.mp h
  obtain ⟨⟨⟩, -, h⟩ := bind_eq_ok.mp h
  obtain ⟨-, h⟩ := guard_eq_ok.mp h
  cases h
  exact ⟨rfl, rfl⟩

instance transCmp_compareChildren : Std.TransCmp (compareChildren lowercase) := by
  rw [compareChildren]
  infer_instance

instance : Std.Total (CaseFolded lowercase) where
  total left right := by
    rw [CaseFolded, CaseFolded, transCmp_compareChildren.eq_swap]
    cases compareChildren lowercase right left <;> decide

instance : IsTrans ChildEntry (CaseFolded lowercase) where
  trans _ _ _ := Std.TransCmp.isLE_trans

theorem sortChildren_perm (children : List ChildEntry) :
    (sortChildren lowercase children).Perm children := List.perm_insertionSort _ _

theorem sortChildren_order (children : List ChildEntry) :
    (sortChildren lowercase children).Pairwise (CaseFolded lowercase) :=
  List.pairwise_insertionSort _ _

theorem readChild_ok {child : Except HResult (List UInt16)} {entry : ChildEntry}
    (h : files.readChild path child = .ok entry) :
    validateVirtualFileName entry.1 = .ok () ∧ entry.2 = files.join path entry.1 := by
  obtain ⟨units, -, h⟩ := bind_eq_ok.mp h
  obtain ⟨name, -, h⟩ := bind_eq_ok.mp h
  obtain ⟨⟨⟩, hname, h⟩ := bind_eq_ok.mp h
  cases h
  exact ⟨windows_eq_ok.mp hname, rfl⟩

theorem CaseFolded.antisymm {left right : ChildEntry} (h : CaseFolded lowercase left right)
    (h' : CaseFolded lowercase right left) : left.1 = right.1 := by
  have hequal := Std.OrientedCmp.isLE_antisymm h h'
  rw [compareChildren, compareLex, Ordering.then_eq_eq] at hequal
  exact Std.LawfulEqOrd.eq_of_compare hequal.2

theorem mem_of_mapM_ok {α β ε : Type} {f : α → Except ε β} {items : List α} {results : List β}
    (h : items.mapM f = .ok results) {b : β} (hb : b ∈ results) : ∃ a ∈ items, f a = .ok b := by
  induction items generalizing results with
  | nil =>
    cases h
    cases hb
  | cons item items ih =>
    rw [List.mapM_cons] at h
    obtain ⟨result, hresult, h⟩ := bind_eq_ok.mp h
    obtain ⟨rest, hrest, h⟩ := bind_eq_ok.mp h
    cases h
    rcases List.mem_cons.mp hb with rfl | hb
    · exact ⟨item, List.mem_cons_self, hresult⟩
    · obtain ⟨a, ha, hfa⟩ := ih hrest hb
      exact ⟨a, List.mem_cons_of_mem _ ha, hfa⟩

theorem readChildren_mem {listed : List ChildEntry} (h : files.readChildren path = .ok listed)
    {child : ChildEntry} (hchild : child ∈ listed) :
    validateVirtualFileName child.1 = .ok () ∧ child.2 = files.join path child.1 := by
  obtain ⟨answers, -, h⟩ := bind_eq_ok.mp h
  obtain ⟨answer, -, hread⟩ := mem_of_mapM_ok h hchild
  exact readChild_ok hread

structure Walks (files : FileSystem) (lowercase : Text → Text) (state : CaptureState)
    (nodes : List FileSnapshot) (state' : CaptureState) : Prop where
  active : state'.activeDirectories = state.activeDirectories
  visits : ∃ block, (treeGraph files lowercase).Visits state.activeDirectories nodes block ∧
    state'.entries = state.entries ++ block

theorem Walks.nil (state : CaptureState) : Walks files lowercase state [] state :=
  ⟨rfl, [], .nil, (List.append_nil _).symm⟩

theorem Walks.cons (h : Walks files lowercase state [snapshot] mid)
    (hrest : Walks files lowercase mid rest state') :
    Walks files lowercase state (snapshot :: rest) state' := by
  obtain ⟨before, hbefore, hmid⟩ := h.visits
  obtain ⟨after, hafter, hstate⟩ := hrest.visits
  rw [h.active] at hafter
  refine ⟨hrest.active.trans h.active, before ++ after, hbefore.cons_append hafter, ?_⟩
  rw [hstate, hmid, List.append_assoc]

theorem foldlM_walks {α : Type} {visit : CaptureState → α → Except CaptureError CaptureState}
    {Captured : α → FileSnapshot → Prop}
    (hvisit : ∀ state item state', visit state item = .ok state' →
      ∃ snapshot, Captured item snapshot ∧ Walks files lowercase state [snapshot] state')
    {items : List α} (h : items.foldlM visit state = .ok state') :
    ∃ nodes, List.Forall₂ Captured items nodes ∧ Walks files lowercase state nodes state' := by
  induction items generalizing state with
  | nil =>
    cases h
    exact ⟨[], .nil, .nil _⟩
  | cons item items ih =>
    obtain ⟨mid, hitem, hitems⟩ := foldlM_cons_eq_ok.mp h
    obtain ⟨snapshot, hcaptured, hfirst⟩ := hvisit state item mid hitem
    obtain ⟨nodes, hnodes, hrest⟩ := ih hitems
    exact ⟨snapshot :: nodes, .cons hcaptured hnodes, hfirst.cons hrest⟩

theorem walks_push {total : Nat}
    (h : ∀ id, (treeGraph files lowercase).identity snapshot = some id →
      id ∈ state.activeDirectories) :
    Walks files lowercase state [snapshot] (state.push snapshot total) :=
  ⟨rfl, [snapshot], .leaf h .nil, rfl⟩

theorem walks_enter {total : Nat} {children : List FileSnapshot} {listed sorted : List ChildEntry}
    (hdirectory : snapshot.isDirectory = true)
    (hnew : snapshot.identity ∉ state.activeDirectories)
    (hlisting : Listing files lowercase snapshot children listed sorted)
    (h : Walks files lowercase ((state.push snapshot total).enter snapshot.identity) children mid) :
    Walks files lowercase state [snapshot] (mid.leave snapshot.identity) := by
  obtain ⟨block, hblock, hentries⟩ := h.visits
  have hactive : mid.activeDirectories = snapshot.identity :: state.activeDirectories := h.active
  refine ⟨?_, snapshot :: (block ++ []), ?_, ?_⟩
  · rw [CaptureState.leave, hactive]
    exact List.erase_cons_head ..
  · exact .enter (if_pos hdirectory) hnew ⟨listed, sorted, hlisting⟩ hblock .nil
  · rw [List.append_nil]
    exact hentries.trans (List.append_assoc state.entries [snapshot] block)

theorem captureTreeEntry_walks {levels : Nat}
    (h : files.captureTreeEntry lowercase levels path virtualPath state = .ok state') :
    ∃ snapshot, files.captureAt path virtualPath true = .ok snapshot ∧
      Walks files lowercase state [snapshot] state' := by
  induction levels generalizing path virtualPath state state' with
  | zero => cases h
  | succ levels ih =>
    obtain ⟨snapshot, hsnapshot, h⟩ := bind_eq_ok.mp h
    refine ⟨snapshot, hsnapshot, ?_⟩
    split at h
    · cases h
    · rename_i total _
      obtain ⟨-, h⟩ := guard_eq_ok.mp h
      split at h
      · rename_i hfile
        cases h
        exact walks_push fun id hid => by simp [treeGraph, hfile] at hid
      · rename_i hdirectory
        have hdirectory : snapshot.isDirectory = true := by simpa using hdirectory
        split at h
        · rename_i hactive
          cases h
          refine walks_push fun id hid => ?_
          obtain rfl := Option.some.inj ((if_pos hdirectory).symm.trans hid)
          exact hactive
        · rename_i hnew
          obtain ⟨listed, hlisted, h⟩ := bind_eq_ok.mp h
          obtain ⟨walked, hwalked, h⟩ := bind_eq_ok.mp h
          cases h
          obtain ⟨children, hchildren, hwalks⟩ := foldlM_walks
            (fun state child state' hchild => ih hchild) hwalked
          obtain ⟨hpath, hname⟩ := captureAt_ok hsnapshot
          refine walks_enter hdirectory hnew ⟨?_, sortChildren_perm listed,
            sortChildren_order listed, ?_⟩ hwalks
          · rw [hpath]
            exact hlisted
          · rw [hname]
            exact hchildren

theorem captureRoot_walks {root : Text}
    (h : files.captureRoot lowercase state root = .ok state') :
    ∃ snapshot, CapturedRoot files root snapshot ∧
      Walks files lowercase state [snapshot] state' := by
  obtain ⟨-, h⟩ := guard_eq_ok.mp h
  split at h
  · cases h
  · rename_i rootName hroot
    obtain ⟨⟨⟩, hvalid, h⟩ := bind_eq_ok.mp h
    obtain ⟨snapshot, hsnapshot, hwalks⟩ := captureTreeEntry_walks h
    exact ⟨snapshot, ⟨rootName, hroot, windows_eq_ok.mp hvalid, hsnapshot⟩, hwalks⟩

theorem selected_roots {paths : List (List UInt16)} {roots : List Text}
    (hpaths : paths.mapM toStr = .ok roots)
    (h : List.Forall₂ (CapturedRoot files) roots nodes) :
    List.Forall₂ (SelectedRoot files) paths nodes := by
  induction paths generalizing roots nodes with
  | nil =>
    cases hpaths
    cases h
    exact .nil
  | cons path paths ih =>
    rw [List.mapM_cons] at hpaths
    obtain ⟨root, hroot, hpaths⟩ := bind_eq_ok.mp hpaths
    obtain ⟨texts, htexts, hpaths⟩ := bind_eq_ok.mp hpaths
    cases hpaths
    cases h with
    | cons hcaptured hrest =>
      exact .cons ⟨root, toStr_eq_ok.mp hroot, hcaptured⟩ (ih htexts hrest)

theorem capture_cases {toLowercase : Char → Text} {paths : List (List UInt16)}
    {tree : FileTreeSnapshot} (h : files.capture lowercase toLowercase paths = .ok tree) :
    (∃ roots, List.Forall₂ (SelectedRoot files) paths roots ∧
      (treeGraph files lowercase).Visits [] roots tree.entries) ∧
    validateVirtualDescriptorTree toLowercase (tree.entries.map (·.descriptor)) = .ok () ∧
    ∃ total, capturedTotal tree.entries = .ok total := by
  obtain ⟨-, h⟩ := guard_eq_ok.mp h
  obtain ⟨texts, htexts, h⟩ := bind_eq_ok.mp h
  obtain ⟨-, h⟩ := guard_eq_ok.mp h
  obtain ⟨state, hstate, h⟩ := bind_eq_ok.mp h
  obtain ⟨⟨⟩, hvalid, h⟩ := bind_eq_ok.mp h
  obtain ⟨total, htotal, h⟩ := bind_eq_ok.mp h
  cases h
  obtain ⟨roots, hroots, hwalks⟩ := foldlM_walks
    (fun _ _ _ hroot => captureRoot_walks hroot) hstate
  obtain ⟨block, hblock, hentries⟩ := hwalks.visits
  have hblock : (treeGraph files lowercase).Visits [] roots state.entries := by
    rw [hentries]
    exact hblock
  exact ⟨⟨roots, selected_roots htexts hroots, hblock⟩, windows_eq_ok.mp hvalid, total,
    rejecting_eq_ok.mp htotal⟩

def DirectlyIn (parent child : FileSnapshot) : Prop :=
  ∃ name, '\\' ∉ name ∧ child.fileName = childVirtualPath parent.fileName name

def Beneath (top bottom : FileSnapshot) : Prop :=
  ∃ rest, bottom.fileName = childVirtualPath top.fileName rest

theorem no_separator {name : Text} (h : validateVirtualFileName name = .ok ()) : '\\' ∉ name :=
  fun hmem => ((safeComponent_of_ok h).chars _ hmem).1 (by decide)

theorem childVirtualPath_cases {front front' rest name : Text} (hname : '\\' ∉ name)
    (h : childVirtualPath front rest = childVirtualPath front' name) :
    (front = front' ∧ rest = name) ∨
      ∃ rest', front' = childVirtualPath front rest' ∧ rest = childVirtualPath rest' name := by
  rcases List.append_eq_append_iff.mp h with ⟨between, hfront, hrest⟩ | ⟨between, hfront, hrest⟩
  · cases between with
    | nil => exact .inl ⟨by simpa using hfront.symm, (List.cons.inj hrest).2⟩
    | cons c between =>
      obtain ⟨rfl, htail⟩ := List.cons.inj hrest
      exact .inr ⟨between, hfront, htail⟩
  · cases between with
    | nil => exact .inl ⟨by simpa using hfront, (List.cons.inj hrest).2.symm⟩
    | cons c between =>
      obtain ⟨-, rfl⟩ := List.cons.inj hrest
      exact absurd (List.mem_append_right _ List.mem_cons_self) hname

theorem separator_mem (front name : Text) : '\\' ∈ childVirtualPath front name :=
  List.mem_append_right _ List.mem_cons_self

theorem DirectlyIn.parent_eq {parent other child : FileSnapshot} (h : DirectlyIn parent child)
    (h' : DirectlyIn other child) : parent.fileName = other.fileName := by
  obtain ⟨name, hname, hchild⟩ := h
  obtain ⟨name', hname', hchild'⟩ := h'
  rcases childVirtualPath_cases hname' (hchild.symm.trans hchild') with ⟨hsame, -⟩ | ⟨rest, -, rfl⟩
  · exact hsame
  · exact absurd (separator_mem rest name') hname

theorem listing_unique {parent : FileSnapshot} {children children' : List FileSnapshot}
    (h : (treeGraph files lowercase).listing parent children)
    (h' : (treeGraph files lowercase).listing parent children') : children = children' := by
  obtain ⟨listed, sorted, hlisting⟩ := h
  obtain ⟨listed', sorted', hlisting'⟩ := h'
  obtain rfl := Except.ok.inj (hlisting.read.symm.trans hlisting'.read)
  have hsorted : sorted = sorted' := by
    refine List.Perm.eq_of_pairwise (fun left right hleft hright hle hge => ?_) hlisting.order
      hlisting'.order (hlisting.perm.trans hlisting'.perm.symm)
    have hname := CaseFolded.antisymm hle hge
    have hpath := (readChildren_mem hlisting.read (hlisting.perm.subset hleft)).2
    have hpath' := (readChildren_mem hlisting.read (hlisting'.perm.subset hright)).2
    exact Prod.ext hname (by rw [hpath, hpath', hname])
  subst hsorted
  refine List.right_unique_forall₂' (fun child first second hfirst hsecond => ?_)
    hlisting.captured hlisting'.captured
  exact Except.ok.inj (hfirst.symm.trans hsecond)

theorem listing_directlyIn {parent : FileSnapshot} {children : List FileSnapshot}
    (h : (treeGraph files lowercase).listing parent children) (hchild : snapshot ∈ children) :
    DirectlyIn parent snapshot := by
  obtain ⟨listed, sorted, hlisting⟩ := h
  obtain ⟨i, hi, rfl⟩ := List.mem_iff_getElem.mp hchild
  have hlength := hlisting.captured.length_eq
  have hcaptured := hlisting.captured.get (i := i) (by omega) hi
  have hmem := hlisting.perm.subset (List.getElem_mem (show i < sorted.length by omega))
  exact ⟨_, no_separator (readChildren_mem hlisting.read hmem).1, (captureAt_ok hcaptured).2⟩

end ClipFerry.Capture
