import Mathlib.Data.List.Nodup
import Mathlib.Logic.Relation

namespace ClipFerry.LinkWalk

variable {Node Id : Type}

/-! A node without an identity has nothing below it. -/

structure LinkGraph (Node Id : Type) where
  identity : Node → Option Id
  listing : Node → List Node → Prop

/-! The pre-order walk of a list of nodes. `chain` holds the identities of the nodes above them;
a node that repeats one of these is kept, and not entered. -/

inductive LinkGraph.Visits (graph : LinkGraph Node Id) : List Id → List Node → List Node → Prop
  | nil {chain : List Id} : graph.Visits chain [] []
  | leaf {chain : List Id} {node : Node} {rest after : List Node}
      (hleaf : ∀ id, graph.identity node = some id → id ∈ chain)
      (hrest : graph.Visits chain rest after) :
      graph.Visits chain (node :: rest) (node :: after)
  | enter {chain : List Id} {node : Node} {id : Id} {rest children below after : List Node}
      (hidentity : graph.identity node = some id) (hnew : id ∉ chain)
      (hlisting : graph.listing node children)
      (hbelow : graph.Visits (id :: chain) children below)
      (hrest : graph.Visits chain rest after) :
      graph.Visits chain (node :: rest) (node :: (below ++ after))

namespace LinkGraph

variable {graph : LinkGraph Node Id} {chain : List Id} {nodes out : List Node} {node : Node}

theorem Visits.cons_append {rest before after : List Node} (h : graph.Visits chain [node] before)
    (hrest : graph.Visits chain rest after) :
    graph.Visits chain (node :: rest) (before ++ after) := by
  cases h with
  | leaf hleaf hnil =>
    cases hnil
    exact .leaf hleaf hrest
  | enter hidentity hnew hlisting hbelow hnil =>
    cases hnil
    rw [List.append_nil]
    exact .enter hidentity hnew hlisting hbelow hrest

theorem Visits.unique
    (hlisting : ∀ node children children', graph.listing node children →
      graph.listing node children' → children = children')
    {out' : List Node} (h : graph.Visits chain nodes out) (h' : graph.Visits chain nodes out') :
    out = out' := by
  induction h generalizing out' with
  | nil =>
    cases h'
    rfl
  | leaf hleaf _ ih =>
    cases h' with
    | leaf _ hrest' => rw [ih hrest']
    | enter hidentity hnew => exact absurd (hleaf _ hidentity) hnew
  | enter hidentity hnew hchildren _ _ ihbelow ih =>
    cases h' with
    | leaf hleaf _ => exact absurd (hleaf _ hidentity) hnew
    | enter hidentity' _ hchildren' hbelow' hrest' =>
      obtain rfl := Option.some.inj (hidentity.symm.trans hidentity')
      obtain rfl := hlisting _ _ _ hchildren hchildren'
      rw [ihbelow hbelow', ih hrest']

def Above (Child : Node → Node → Prop) (all : List Node) : Node → Node → Prop :=
  Relation.TransGen fun parent child => parent ∈ all ∧ Child parent child

structure Apart (Child : Node → Node → Prop) (all : List Node) (first : Node)
    (below after : List Node) : Prop where
  up : ∀ top ∈ first :: (below ++ after), ¬Above Child all top first
  across : ∀ top ∈ first :: below, ∀ bottom ∈ after, ¬Above Child all top bottom
  back : ∀ top ∈ after, ∀ bottom ∈ below, ¬Above Child all top bottom

theorem Apart.cases {Child : Node → Node → Prop} {all below after : List Node}
    {first top bottom : Node} (h : Apart Child all first below after)
    (htop : top ∈ first :: (below ++ after)) (hbottom : bottom ∈ first :: (below ++ after))
    (habove : Above Child all top bottom) :
    (top ∈ first :: below ∧ bottom ∈ below) ∨ (top ∈ after ∧ bottom ∈ after) := by
  rcases List.mem_cons.mp hbottom with rfl | hbottom
  · exact absurd habove (h.up top htop)
  rw [← List.cons_append] at htop
  rcases List.mem_append.mp hbottom with hbottom | hbottom
  · rcases List.mem_append.mp htop with htop | htop
    · exact .inl ⟨htop, hbottom⟩
    · exact absurd habove (h.back top htop bottom hbottom)
  · rcases List.mem_append.mp htop with htop | htop
    · exact absurd habove (h.across top htop bottom hbottom)
    · exact .inr ⟨htop, hbottom⟩

section Parents

variable {Child : Node → Node → Prop}
  (hchild : ∀ node children, graph.listing node children → ∀ child ∈ children, Child node child)

include hchild

theorem Visits.parent_first (h : graph.Visits chain nodes out) {front back : List Node}
    (hout : out = front ++ node :: back) : node ∈ nodes ∨ ∃ parent ∈ front, Child parent node := by
  induction h generalizing front back with
  | nil => simp at hout
  | leaf hleaf hrest ih =>
    rcases List.cons_eq_append_iff.mp hout with ⟨-, hhead⟩ | ⟨front, rfl, hafter⟩
    · cases hhead
      exact .inl List.mem_cons_self
    · rcases ih hafter with hnode | ⟨parent, hparent, hchild⟩
      · exact .inl (List.mem_cons_of_mem _ hnode)
      · exact .inr ⟨parent, List.mem_cons_of_mem _ hparent, hchild⟩
  | @enter chain top id rest children below after _ _ hlisting _ _ ihbelow ih =>
    rcases List.cons_eq_append_iff.mp hout with ⟨-, hhead⟩ | ⟨front, rfl, hsplit⟩
    · cases hhead
      exact .inl List.mem_cons_self
    have hafter : ∀ between, after = between ++ node :: back → between ⊆ front →
        node ∈ top :: rest ∨ ∃ parent ∈ top :: front, Child parent node := by
      intro between hafter hbetween
      rcases ih hafter with hnode | ⟨parent, hparent, hchild⟩
      · exact .inl (List.mem_cons_of_mem _ hnode)
      · exact .inr ⟨parent, List.mem_cons_of_mem _ (hbetween hparent), hchild⟩
    rcases List.append_eq_append_iff.mp hsplit with ⟨between, rfl, hrest⟩ | ⟨between, hbelow, hrest⟩
    · exact hafter between hrest (List.subset_append_right _ _)
    · cases between with
      | nil => exact hafter [] hrest.symm (List.nil_subset _)
      | cons first between =>
        obtain ⟨rfl, -⟩ := List.cons.inj hrest
        rcases ihbelow hbelow with hnode | ⟨parent, hparent, hchild⟩
        · exact .inr ⟨top, List.mem_cons_self, hchild top children hlisting node hnode⟩
        · exact .inr ⟨parent, List.mem_cons_of_mem _ hparent, hchild⟩

theorem Visits.parent_mem (h : graph.Visits chain nodes out) (hnode : node ∈ out) :
    node ∈ nodes ∨ ∃ parent ∈ out, Child parent node := by
  obtain ⟨front, back, hout⟩ := List.append_of_mem hnode
  rcases h.parent_first hchild hout with hnode | ⟨parent, hparent, hchild⟩
  · exact .inl hnode
  · exact .inr ⟨parent, hout ▸ List.mem_append_left _ hparent, hchild⟩

variable {all : List Node} {top bottom : Node}
  (hsingle : ∀ parent ∈ all, ∀ other ∈ all, ∀ child, Child parent child → Child other child →
    parent = other)

omit hchild in
include hsingle in
theorem Above.parent (h : Above Child all top bottom) {parent : Node} (hparent : parent ∈ all)
    (hlists : Child parent bottom) : top = parent ∨ Above Child all top parent := by
  cases h with
  | single hlast => exact .inl (hsingle _ hlast.1 _ hparent _ hlast.2 hlists)
  | tail hfirst hlast =>
    obtain rfl := hsingle _ hlast.1 _ hparent _ hlast.2 hlists
    exact .inr hfirst

include hsingle

theorem Visits.climb (h : graph.Visits chain nodes out) (hall : out ⊆ all)
    (habove : Above Child all top bottom) (hbottom : bottom ∈ out) :
    top ∈ out ∨ ∃ root ∈ nodes, Above Child all top root := by
  induction habove with
  | single hlast =>
    rcases h.parent_mem hchild hbottom with hroot | ⟨parent, hparent, hlists⟩
    · exact .inr ⟨_, hroot, .single hlast⟩
    · obtain rfl := hsingle _ hlast.1 _ (hall hparent) _ hlast.2 hlists
      exact .inl hparent
  | tail hfirst hlast ih =>
    rcases h.parent_mem hchild hbottom with hroot | ⟨parent, hparent, hlists⟩
    · exact .inr ⟨_, hroot, hfirst.tail hlast⟩
    · obtain rfl := hsingle _ hlast.1 _ (hall hparent) _ hlast.2 hlists
      exact ih hparent

theorem Visits.outside (h : graph.Visits chain nodes out) (hall : out ⊆ all) (htop : top ∉ out)
    (hroots : ∀ root ∈ nodes, ¬Above Child all top root) (hbottom : bottom ∈ out) :
    ¬Above Child all top bottom := by
  intro habove
  rcases h.climb hchild hsingle hall habove hbottom with hmem | ⟨root, hroot, hreach⟩
  · exact htop hmem
  · exact hroots root hroot hreach

theorem Visits.apart_leaf {rest after : List Node} (h : graph.Visits chain rest after)
    (hall : after ⊆ all) (hfirst : node ∉ after)
    (hroots : ∀ root ∈ node :: rest, ∀ top ∈ node :: after, ¬Above Child all top root) :
    Apart Child all node [] after where
  up := hroots node List.mem_cons_self
  across top htop bottom hbottom := by
    obtain rfl := List.mem_singleton.mp htop
    exact h.outside hchild hsingle hall hfirst (fun root hroot =>
      hroots root (List.mem_cons_of_mem _ hroot) top List.mem_cons_self) hbottom
  back top htop bottom hbottom := nomatch hbottom

theorem Visits.apart_enter {id : Id} {rest children below after : List Node}
    (hlisting : graph.listing node children) (hbelow : graph.Visits (id :: chain) children below)
    (hrest : graph.Visits chain rest after) (hall : node :: (below ++ after) ⊆ all)
    (hnodup : (node :: (below ++ after)).Nodup)
    (hroots : ∀ root ∈ node :: rest, ∀ top ∈ node :: (below ++ after),
      ¬Above Child all top root) :
    (∀ root ∈ children, ∀ top ∈ below ++ after, ¬Above Child all top root) ∧
      Apart Child all node below after := by
  obtain ⟨hnodeAll, hsubset⟩ := List.cons_subset.mp hall
  obtain ⟨hbelowAll, hafterAll⟩ := List.append_subset.mp hsubset
  obtain ⟨hfirst, hnodup⟩ := List.nodup_cons.mp hnodup
  obtain ⟨-, -, hdisjoint⟩ := List.nodup_append.mp hnodup
  have hup : ∀ top ∈ node :: (below ++ after), ¬Above Child all top node :=
    hroots node List.mem_cons_self
  have hchildren : ∀ root ∈ children, ∀ top ∈ below ++ after, ¬Above Child all top root := by
    intro root hroot top htop habove
    rcases habove.parent hsingle hnodeAll (hchild _ _ hlisting root hroot) with rfl | hreach
    · exact hfirst htop
    · exact hup top (List.mem_cons_of_mem _ htop) hreach
  refine ⟨hchildren, hup, fun top htop bottom => ?_, fun top htop bottom => ?_⟩
  · have hafter : top ∉ after := by
      rcases List.mem_cons.mp htop with rfl | htop
      · exact fun hmem => hfirst (List.mem_append_right _ hmem)
      · exact fun hmem => hdisjoint top htop top hmem rfl
    exact hrest.outside hchild hsingle hafterAll hafter fun root hroot =>
      hroots root (List.mem_cons_of_mem _ hroot) top (List.mem_append_left after htop)
  · exact hbelow.outside hchild hsingle hbelowAll
      (fun hmem => hdisjoint top hmem top htop rfl)
      fun root hroot => hchildren root hroot top (List.mem_append_right _ htop)

theorem Visits.entered (h : graph.Visits chain nodes out) (hall : out ⊆ all) (hnodup : out.Nodup)
    (hroots : ∀ root ∈ nodes, ∀ node ∈ out, ¬Above Child all node root) (hnode : node ∈ out)
    (hbottom : bottom ∈ out) (hdown : Above Child all node bottom) :
    ∃ id, graph.identity node = some id ∧ id ∉ chain ∧ ∀ top ∈ out, Above Child all top node →
      ∃ other, graph.identity top = some other ∧ other ≠ id := by
  induction h with
  | nil => cases hnode
  | @leaf chain first rest after _ hrest ih =>
    obtain ⟨-, hafterAll⟩ := List.cons_subset.mp hall
    obtain ⟨hfirst, hnodup⟩ := List.nodup_cons.mp hnodup
    have hapart := hrest.apart_leaf hchild hsingle hafterAll hfirst hroots
    have hrest' : ∀ root ∈ rest, ∀ top ∈ after, ¬Above Child all top root :=
      fun root hroot top htop => hroots root (List.mem_cons_of_mem _ hroot) top
        (List.mem_cons_of_mem _ htop)
    obtain ⟨-, hnone⟩ | ⟨hnodeAfter, hbottomAfter⟩ := hapart.cases hnode hbottom hdown
    · cases hnone
    obtain ⟨id, hidentity, hnew, htops⟩ := ih hafterAll hnodup hrest' hnodeAfter hbottomAfter
    refine ⟨id, hidentity, hnew, fun top htop habove => ?_⟩
    obtain ⟨-, hnone⟩ | ⟨htop, -⟩ := hapart.cases htop hnode habove
    · cases hnone
    · exact htops top htop habove
  | @enter chain first firstId rest children below after hfirstId hfirstNew hlisting hbelow hrest
      ihbelow ih =>
    obtain ⟨hchildren, hapart⟩ :=
      Visits.apart_enter hchild hsingle hlisting hbelow hrest hall hnodup hroots
    obtain ⟨-, hsubset⟩ := List.cons_subset.mp hall
    obtain ⟨hbelowAll, hafterAll⟩ := List.append_subset.mp hsubset
    obtain ⟨-, hnodup⟩ := List.nodup_cons.mp hnodup
    obtain ⟨hnodupBelow, hnodupAfter, hdisjoint⟩ := List.nodup_append.mp hnodup
    have hrest' : ∀ root ∈ rest, ∀ top ∈ after, ¬Above Child all top root :=
      fun root hroot top htop => hroots root (List.mem_cons_of_mem _ hroot) top
        (List.mem_cons_of_mem _ (List.mem_append_right _ htop))
    obtain ⟨hnodeFirst, hbottomBelow⟩ | ⟨hnodeAfter, hbottomAfter⟩ :=
      hapart.cases hnode hbottom hdown
    · rcases List.mem_cons.mp hnodeFirst with rfl | hnodeBelow
      · refine ⟨firstId, hfirstId, hfirstNew, fun top htop habove => ?_⟩
        exact absurd habove (hapart.up top htop)
      obtain ⟨id, hidentity, hnew, htops⟩ := ihbelow hbelowAll hnodupBelow
        (fun root hroot top htop => hchildren root hroot top (List.mem_append_left _ htop))
        hnodeBelow hbottomBelow
      obtain ⟨hdiffers, hnew⟩ := not_or.mp (mt List.mem_cons.mpr hnew)
      refine ⟨id, hidentity, hnew, fun top htop habove => ?_⟩
      obtain ⟨htop, -⟩ | ⟨-, hnodeAfter⟩ := hapart.cases htop hnode habove
      · rcases List.mem_cons.mp htop with rfl | htop
        · exact ⟨firstId, hfirstId, Ne.symm hdiffers⟩
        · exact htops top htop habove
      · exact absurd rfl (hdisjoint node hnodeBelow node hnodeAfter)
    · obtain ⟨id, hidentity, hnew, htops⟩ :=
        ih hafterAll hnodupAfter hrest' hnodeAfter hbottomAfter
      refine ⟨id, hidentity, hnew, fun top htop habove => ?_⟩
      obtain ⟨-, hnodeBelow⟩ | ⟨htop, -⟩ := hapart.cases htop hnode habove
      · exact absurd rfl (hdisjoint node hnodeBelow node hnodeAfter)
      · exact htops top htop habove

end Parents

end LinkGraph

end ClipFerry.LinkWalk
