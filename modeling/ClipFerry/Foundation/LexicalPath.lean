import Mathlib.Data.List.DropRight

namespace ClipFerry.LexicalPath

def isSeparator (c : Char) : Bool := c == '\\' || c == '/'

inductive Root where
  | relative
  | rooted
  | driveRelative (letter : Char)
  | drive (letter : Char)
  | unc
deriving DecidableEq, Repr

def rootOf : List Char → Root × List Char
  | [] => (.relative, [])
  | [a] => if isSeparator a then (.rooted, []) else (.relative, [a])
  | a :: b :: rest =>
    if isSeparator a then
      if isSeparator b then (.unc, rest) else (.rooted, b :: rest)
    else if a.isAlpha && b == ':' then
      match rest with
      | [] => (.driveRelative a, [])
      | c :: tail => if isSeparator c then (.drive a, tail) else (.driveRelative a, c :: tail)
    else (.relative, a :: b :: rest)

def ascend (relative : Bool) (parts : List (List Char)) : List (List Char) :=
  match parts.getLast? with
  | none => if relative then [['.', '.']] else []
  | some last => if last = ['.', '.'] then parts ++ [['.', '.']] else parts.dropLast

def resolve (relative : Bool) (parts : List (List Char)) (part : List Char) : List (List Char) :=
  if part = [] ∨ part = ['.'] then parts
  else if part.rdropWhile (· == ' ') = ['.', '.'] then ascend relative parts
  else
    let plain := (part.takeWhile (· != ':')).rdropWhile fun c => c == ' ' || c == '.'
    if plain = [] then parts else parts ++ [plain]

structure Location where
  root : Root
  parts : List (List Char)
deriving DecidableEq, Repr

def resolveAll (root : Root) (path : List Char) (parts : List (List Char)) : List (List Char) :=
  (path.splitOnP isSeparator).foldl (resolve (root == .relative)) parts

def locate (path : List Char) : Location :=
  ⟨(rootOf path).1, resolveAll (rootOf path).1 (rootOf path).2 []⟩

def isDriveOnly : List Char → Bool
  | [a, b] => !isSeparator a && (a.isAlpha && b == ':')
  | _ => false

def needsSeparator (dir : List Char) : Bool :=
  match dir.getLast? with
  | none => false
  | some c => !isSeparator c && !isDriveOnly dir

def push (dir name : List Char) : List Char :=
  if (rootOf name).1 ≠ .relative then name
  else if needsSeparator dir then dir ++ '\\' :: name
  else dir ++ name

def StrictlyBelow (dir place : Location) : Prop :=
  place.root = dir.root ∧ dir.parts <+: place.parts ∧ dir.parts.length < place.parts.length

structure Plain (part : List Char) : Prop where
  nonempty : part ≠ []
  noSeparator : ∀ c ∈ part, isSeparator c = false
  noColon : ':' ∉ part
  ending : ∀ c, part.getLast? = some c → c ≠ ' ' ∧ c ≠ '.'

theorem Plain.rdropWhile_eq {part : List Char} (h : Plain part) {p : Char → Bool}
    (hp : ∀ c, p c = true → c = ' ' ∨ c = '.') : part.rdropWhile p = part := by
  rw [List.rdropWhile_eq_self_iff]
  intro hne hlast
  have hend := h.ending _ (List.getLast?_eq_some_getLast hne)
  rcases hp _ hlast with hc | hc
  · exact hend.1 hc
  · exact hend.2 hc

theorem resolve_plain {part : List Char} (h : Plain part) (relative : Bool)
    (parts : List (List Char)) : resolve relative parts part = parts ++ [part] := by
  have hdot : part ≠ ['.'] := fun he => (h.ending '.' (by simp [he])).2 rfl
  have hdots : part ≠ ['.', '.'] := fun he => (h.ending '.' (by simp [he])).2 rfl
  have hspaces : part.rdropWhile (· == ' ') = part :=
    h.rdropWhile_eq fun c hc => .inl (by simpa using hc)
  have hcolon : part.takeWhile (· != ':') = part := by
    rw [List.takeWhile_eq_self_iff]
    intro c hc
    have hne : c ≠ ':' := fun he => h.noColon (he ▸ hc)
    simpa using hne
  have hplain : part.rdropWhile (fun c => c == ' ' || c == '.') = part :=
    h.rdropWhile_eq fun c hc => by simpa using hc
  simp only [resolve, hspaces, hcolon, hplain, h.nonempty, hdot, hdots, or_self, if_false]

theorem foldl_resolve_plain {names : List (List Char)} (h : ∀ part ∈ names, Plain part)
    (relative : Bool) (parts : List (List Char)) :
    names.foldl (resolve relative) parts = parts ++ names := by
  induction names generalizing parts with
  | nil => simp
  | cons part names ih =>
    rw [List.foldl_cons, resolve_plain (h part (by simp)),
      ih fun part hpart => h part (List.mem_cons_of_mem _ hpart)]
    simp

theorem mem_splitOnP {p : Char → Bool} {c : Char} {path : List Char} (hc : c ∈ path)
    (hp : p c = false) : ∃ part ∈ path.splitOnP p, c ∈ part := by
  induction path with
  | nil => simp at hc
  | cons a path ih =>
    rw [List.splitOnP_cons_eq_if_modifyHead]
    rcases List.mem_cons.mp hc with rfl | hc
    · obtain ⟨head, tail, hsplit⟩ := List.exists_cons_of_ne_nil (List.splitOnP_ne_nil p path)
      rw [hp, hsplit]
      exact ⟨c :: head, by simp, by simp⟩
    · obtain ⟨part, hpart, hmem⟩ := ih hc
      split
      · exact ⟨part, List.mem_cons_of_mem _ hpart, hmem⟩
      · obtain ⟨head, tail, hsplit⟩ := List.exists_cons_of_ne_nil (List.splitOnP_ne_nil p path)
        rw [hsplit] at hpart ⊢
        rcases List.mem_cons.mp hpart with rfl | hpart
        · exact ⟨a :: part, by simp, List.mem_cons_of_mem _ hmem⟩
        · exact ⟨part, by simp [hpart], hmem⟩

theorem rootOf_append_separated {dir : List Char} (name : List Char)
    (hdir : needsSeparator dir = true) :
    rootOf (dir ++ '\\' :: name) = ((rootOf dir).1, (rootOf dir).2 ++ '\\' :: name) := by
  match dir with
  | [] => simp [needsSeparator] at hdir
  | [a] =>
    have ha : isSeparator a = false := by simpa [needsSeparator, isDriveOnly] using hdir
    simp [rootOf, ha]
  | a :: b :: [] =>
    have hdrive : isDriveOnly [a, b] = false := by
      simp only [needsSeparator, List.getLast?_cons_cons, List.getLast?_singleton,
        Bool.and_eq_true, Bool.not_eq_true'] at hdir
      exact hdir.2
    cases ha : isSeparator a
    · have hab : (a.isAlpha && b == ':') = false := by simpa [isDriveOnly, ha] using hdrive
      simp [rootOf, ha, hab]
    · cases hb : isSeparator b <;> simp [rootOf, ha, hb]
  | a :: b :: c :: rest =>
    simp only [rootOf, List.cons_append]
    split_ifs <;> rfl

section Push

variable {name : List Char} (hplain : ∀ part ∈ name.splitOnP isSeparator, Plain part)

include hplain

theorem name_cons : ∃ c rest, name = c :: rest ∧ isSeparator c = false := by
  cases name with
  | nil => exact absurd rfl (hplain [] (by simp)).nonempty
  | cons c rest =>
    refine ⟨c, rest, rfl, ?_⟩
    by_contra hc
    have hempty : [] ∈ (c :: rest).splitOnP isSeparator := by
      rw [List.splitOnP_cons_eq_if_modifyHead, if_pos (by simpa using hc)]
      exact List.mem_cons_self
    exact (hplain [] hempty).nonempty rfl

theorem colon_notMem : ':' ∉ name := fun h =>
  let ⟨part, hpart, hmem⟩ := mem_splitOnP (p := isSeparator) h (by decide)
  (hplain part hpart).noColon hmem

theorem rootOf_name : rootOf name = (.relative, name) := by
  obtain ⟨a, rest, rfl, ha⟩ := name_cons hplain
  have hcolon := colon_notMem hplain
  cases rest with
  | nil => simp [rootOf, ha]
  | cons b rest =>
    have hb : (b == ':') = false := by
      have hne : b ≠ ':' := fun h => hcolon (by simp [h])
      simpa using hne
    simp [rootOf, ha, hb]

theorem rootOf_append_direct {dir : List Char} (hdir : needsSeparator dir = false) :
    rootOf (dir ++ name) = ((rootOf dir).1, (rootOf dir).2 ++ name) := by
  obtain ⟨n, tail, hname, hn⟩ := name_cons hplain
  match dir with
  | [] => simpa [rootOf] using rootOf_name hplain
  | [a] =>
    have ha : isSeparator a = true := by simpa [needsSeparator, isDriveOnly] using hdir
    simp [hname, rootOf, ha, hn]
  | a :: b :: [] =>
    simp only [hname, rootOf, List.cons_append, List.nil_append, hn, Bool.false_eq_true, if_false]
    split_ifs <;> rfl
  | a :: b :: c :: rest =>
    simp only [rootOf, List.cons_append]
    split_ifs <;> rfl

end Push

theorem rootOf_suffix (path : List Char) : (rootOf path).2 <:+ path := by
  match path with
  | [] => exact List.suffix_rfl
  | [a] =>
    simp only [rootOf]
    split_ifs
    · exact List.nil_suffix
    · exact List.suffix_rfl
  | [a, b] =>
    simp only [rootOf]
    split_ifs
    · exact List.nil_suffix
    · exact List.suffix_cons a [b]
    · exact List.nil_suffix
    · exact List.suffix_rfl
  | a :: b :: c :: rest =>
    simp only [rootOf]
    split_ifs
    · exact (List.suffix_cons b _).trans (List.suffix_cons a _)
    · exact List.suffix_cons a _
    · exact (List.suffix_cons c _).trans ((List.suffix_cons b _).trans (List.suffix_cons a _))
    · exact (List.suffix_cons b _).trans (List.suffix_cons a _)
    · exact List.suffix_rfl

theorem rootOf_closed {dir : List Char} (hdir : needsSeparator dir = false) :
    (rootOf dir).2 = [] ∨ ∃ front c, (rootOf dir).2 = front ++ [c] ∧ isSeparator c = true := by
  by_cases hempty : (rootOf dir).2 = []
  · exact .inl hempty
  · right
    obtain ⟨before, hbefore⟩ := rootOf_suffix dir
    refine ⟨_, _, (List.dropLast_concat_getLast hempty).symm, ?_⟩
    have hlast : dir.getLast? = some ((rootOf dir).2.getLast hempty) := by
      have h := congrArg List.getLast? hbefore
      rw [List.getLast?_append, List.getLast?_eq_some_getLast hempty] at h
      exact h.symm
    simp only [needsSeparator, hlast, Bool.and_eq_false_iff, Bool.not_eq_false'] at hdir
    rcases hdir with hsep | hdrive
    · exact hsep
    · match dir with
      | [] => simp [isDriveOnly] at hdrive
      | [_] => simp [isDriveOnly] at hdrive
      | _ :: _ :: _ :: _ => simp [isDriveOnly] at hdrive
      | [a, b] =>
        simp only [isDriveOnly, Bool.and_eq_true, Bool.not_eq_true'] at hdrive
        exact absurd (by simp [rootOf, hdrive.1, hdrive.2]) hempty

theorem resolveAll_append (root : Root) (front tail : List Char) {c : Char}
    (hc : isSeparator c = true) (parts : List (List Char)) :
    resolveAll root (front ++ c :: tail) parts =
      resolveAll root tail (resolveAll root front parts) := by
  rw [resolveAll, List.splitOnP_append_cons front tail hc, List.foldl_append]
  rfl

theorem locate_push {name : List Char} (hplain : ∀ part ∈ name.splitOnP isSeparator, Plain part)
    (dir : List Char) : locate (push dir name) =
      ⟨(locate dir).root, (locate dir).parts ++ name.splitOnP isSeparator⟩ := by
  have hname (root : Root) (parts : List (List Char)) :
      resolveAll root name parts = parts ++ name.splitOnP isSeparator :=
    foldl_resolve_plain hplain _ parts
  rw [push, rootOf_name hplain, if_neg (by simp)]
  cases hdir : needsSeparator dir with
  | true =>
    have hroot := rootOf_append_separated name hdir
    simp only [if_true, locate, hroot, resolveAll_append _ _ _ (c := '\\') rfl, hname]
  | false =>
    have hroot := rootOf_append_direct hplain hdir
    simp only [Bool.false_eq_true, if_false, locate, hroot]
    rcases rootOf_closed hdir with hnil | ⟨front, c, hfront, hc⟩
    · simp only [hnil, List.nil_append, hname]
      simp [resolveAll, resolve]
    · rw [hfront, List.append_assoc, List.singleton_append, resolveAll_append _ _ _ hc, hname,
        resolveAll_append _ front [] hc]
      simp [resolveAll, resolve]

theorem strictlyBelow_push {name : List Char}
    (hplain : ∀ part ∈ name.splitOnP isSeparator, Plain part) (dir : List Char) :
    StrictlyBelow (locate dir) (locate (push dir name)) := by
  have hne : name.splitOnP isSeparator ≠ [] := List.splitOnP_ne_nil _ _
  rw [locate_push hplain]
  refine ⟨rfl, List.prefix_append _ _, ?_⟩
  rw [List.length_append]
  have hpos := List.length_pos_of_ne_nil hne
  omega

end ClipFerry.LexicalPath
