import ClipFerry.Device.Fingerprint
import ClipFerry.Settings.AppSettings

/-! How the standard library displays and parses a `SocketAddr`. -/

namespace ClipFerry.Settings

open Device VirtualTree

def toDigit (radix : Nat) (c : Char) : Option Nat := (hexDigit c).filter (· < radix)

def digitSpan (radix : Nat) : Text → List Nat × Text
  | [] => ([], [])
  | c :: rest =>
    match toDigit radix c with
    | none => ([], c :: rest)
    | some digit => (digit :: (digitSpan radix rest).1, (digitSpan radix rest).2)

def fromDigits (radix : Nat) (digits : List Nat) : Nat :=
  digits.foldl (fun value digit => value * radix + digit) 0

def readNumber (radix limit : Nat) (maxDigits : Option Nat) (allowZeroPrefix : Bool)
    (text : Text) : Option (Nat × Text) :=
  let (digits, rest) := digitSpan radix text
  if digits = [] ∨ maxDigits.any (· < digits.length) = true then none
  else if allowZeroPrefix = false ∧ text.head? = some '0' ∧ 1 < digits.length then none
  else if limit ≤ fromDigits radix digits then none
  else some (fromDigits radix digits, rest)

def readGivenChar (target : Char) : Text → Option Text
  | [] => none
  | c :: rest => if c = target then some rest else none

def readSeparator {α : Type} (separator : Char) (index : Nat)
    (inner : Text → Option (α × Text)) (text : Text) : Option (α × Text) :=
  if index = 0 then inner text else (readGivenChar separator text).bind inner

def readOctet (index : Nat) (text : Text) : Option (UInt8 × Text) := do
  let (value, text) ← readSeparator '.' index (readNumber 10 256 (some 3) false) text
  some (.ofNat value, text)

def readIpv4Addr (text : Text) : Option (List.Vector UInt8 4 × Text) := do
  let (a, text) ← readOctet 0 text
  let (b, text) ← readOctet 1 text
  let (c, text) ← readOctet 2 text
  let (d, text) ← readOctet 3 text
  some (⟨[a, b, c, d], rfl⟩, text)

def segmentsOf : List UInt8 → List Nat
  | high :: low :: rest => (high.toNat * 256 + low.toNat) :: segmentsOf rest
  | _ => []

def octetsOf (segments : List Nat) : List UInt8 :=
  segments.flatMap fun segment => [.ofNat (segment / 256), .ofNat segment]

def ofSegments (segments : List Nat) : Option (List.Vector UInt8 16) :=
  if h : (octetsOf segments).length = 16 then some ⟨octetsOf segments, h⟩ else none

def readGroup (index : Nat) : Text → Option (Nat × Text) :=
  readSeparator ':' index (readNumber 16 65536 (some 4) true)

def readGroups : Nat → List Nat → Text → List Nat × Bool × Text
  | 0, groups, text => (groups, false, text)
  | remaining + 1, groups, text =>
    match if 0 < remaining then readSeparator ':' groups.length readIpv4Addr text else none with
    | some (octets, rest) => (groups ++ segmentsOf octets.val, true, rest)
    | none =>
      match readGroup groups.length text with
      | some (group, rest) => readGroups remaining (groups ++ [group]) rest
      | none => (groups, false, text)

def readIpv6Addr (text : Text) : Option (List.Vector UInt8 16 × Text) :=
  match readGroups 8 [] text with
  | (head, headIpv4, text) =>
    if head.length = 8 then (ofSegments head).map (·, text)
    else if headIpv4 = true then none
    else do
      let text ← readGivenChar ':' text
      let text ← readGivenChar ':' text
      match readGroups (8 - (head.length + 1)) [] text with
      | (tail, _, text) =>
        (ofSegments (head ++ List.replicate (8 - tail.length - head.length) 0 ++ tail)).map
          (·, text)

def readPort (text : Text) : Option (Nat × Text) :=
  (readGivenChar ':' text).bind (readNumber 10 (2 ^ 16) none true)

def readScopeId (text : Text) : Option (Nat × Text) :=
  (readGivenChar '%' text).bind (readNumber 10 (2 ^ 32) none true)

namespace SocketAddr

def readV4 (text : Text) : Option (SocketAddr × Text) := do
  let (ip, text) ← readIpv4Addr text
  let (port, text) ← readPort text
  some (v4 ip (.ofNat port), text)

def readV6 (text : Text) : Option (SocketAddr × Text) := do
  let text ← readGivenChar '[' text
  let (ip, text) ← readIpv6Addr text
  let (scopeId, text) := (readScopeId text).getD (0, text)
  let text ← readGivenChar ']' text
  let (port, text) ← readPort text
  some (v6 ip (.ofNat port) (.ofNat scopeId), text)

def fromStr (text : Text) : Option SocketAddr :=
  match (readV4 text).or (readV6 text) with
  | some (endpoint, []) => some endpoint
  | _ => none

end SocketAddr

def decimal (n : Nat) : Text := Nat.toDigits 10 n

def hex (n : Nat) : Text := Nat.toDigits 16 n

def displayIpv4 : List UInt8 → Text
  | [] => []
  | first :: rest => decimal first.toNat ++ rest.flatMap fun octet => '.' :: decimal octet.toNat

structure Span where
  start : Nat
  len : Nat

def longestZeros : Nat → Span → Span → List Nat → Span
  | _, _, longest, [] => longest
  | i, current, longest, segment :: segments =>
    if segment = 0 then
      let current : Span := ⟨if current.len = 0 then i else current.start, current.len + 1⟩
      longestZeros (i + 1) current (if longest.len < current.len then current else longest) segments
    else longestZeros (i + 1) ⟨0, 0⟩ longest segments

def fmtSubslice : List Nat → Text
  | [] => []
  | first :: tail => hex first ++ tail.flatMap fun segment => ':' :: hex segment

def displayIpv6 (octets : List UInt8) : Text :=
  if octets.take 12 = List.replicate 10 0 ++ [255, 255] then
    "::ffff:".toList ++ displayIpv4 (octets.drop 12)
  else
    let segments := segmentsOf octets
    let zeroes := longestZeros 0 ⟨0, 0⟩ ⟨0, 0⟩ segments
    if 1 < zeroes.len then
      fmtSubslice (segments.take zeroes.start) ++ "::".toList ++
        fmtSubslice (segments.drop (zeroes.start + zeroes.len))
    else fmtSubslice segments

def SocketAddr.display : SocketAddr → Text
  | v4 ip port => displayIpv4 ip.val ++ ':' :: decimal port.toNat
  | v6 ip port scopeId => '[' :: displayIpv6 ip.val ++
      (if scopeId = 0 then [] else '%' :: decimal scopeId.toNat) ++
      ']' :: ':' :: decimal port.toNat

variable {radix limit n : Nat} {text rest : Text} {segments : List Nat}

def Stops (radix : Nat) (rest : Text) : Prop := ∀ c ∈ rest.head?, toDigit radix c = none

theorem toDigit_digitChar (hradix : radix ≤ 16) (h : n < radix) :
    toDigit radix (Nat.digitChar n) = some n := by
  rw [toDigit, hexDigit_digitChar (h.trans_le hradix)]
  exact Option.filter_eq_some_iff.mpr ⟨rfl, decide_eq_true h⟩

theorem digitSpan_stops (h : Stops radix rest) : digitSpan radix rest = ([], rest) := by
  cases rest with
  | nil => rfl
  | cons c rest => rw [digitSpan, h c rfl]

theorem digitSpan_digits (hradix : radix ≤ 16) {digits : List Nat}
    (hdigits : ∀ digit ∈ digits, digit < radix) (h : Stops radix rest) :
    digitSpan radix (digits.map Nat.digitChar ++ rest) = (digits, rest) := by
  induction digits with
  | nil => exact digitSpan_stops h
  | cons digit digits ih =>
    rw [List.map_cons, List.cons_append, digitSpan,
      toDigit_digitChar hradix (hdigits digit List.mem_cons_self)]
    dsimp only
    rw [ih fun d hd => hdigits d (List.mem_cons_of_mem _ hd)]

structure DigitsOf (radix n : Nat) (digits : List Nat) : Prop where
  text : Nat.toDigits radix n = digits.map Nat.digitChar
  small : ∀ digit ∈ digits, digit < radix
  value : fromDigits radix digits = n
  nonempty : digits ≠ []
  lead : digits.head? = some 0 → digits = [0]

theorem digitsOf (hradix : 1 < radix) (n : Nat) : ∃ digits, DigitsOf radix n digits := by
  induction n using Nat.strongRecOn with
  | ind n ih =>
    by_cases hsmall : n < radix
    · refine ⟨[n], Nat.toDigits_of_lt_base hsmall, ?_, ?_, List.cons_ne_nil _ _, ?_⟩
      · intro digit hdigit
        exact List.mem_singleton.mp hdigit ▸ hsmall
      · rw [fromDigits, List.foldl_cons, Nat.zero_mul, Nat.zero_add]
        rfl
      · intro hlead
        exact congrArg (fun digit => [digit]) (Option.some.inj hlead)
    · have hbig : radix ≤ n := Nat.not_lt.mp hsmall
      have hpos : 0 < n / radix := Nat.div_pos hbig (by omega)
      obtain ⟨digits, htext, hdigits, hvalue, hnonempty, hlead⟩ :=
        ih (n / radix) (Nat.div_lt_self (by omega) hradix)
      refine ⟨digits ++ [n % radix], ?_, ?_, ?_, ?_, ?_⟩
      · rw [Nat.toDigits_of_base_le hradix hbig, htext, List.map_append]
        rfl
      · intro digit hdigit
        rcases List.mem_append.mp hdigit with hdigit | hdigit
        · exact hdigits digit hdigit
        · exact List.mem_singleton.mp hdigit ▸ Nat.mod_lt _ (by omega)
      · rw [fromDigits, List.foldl_append] at *
        rw [hvalue]
        exact Nat.div_add_mod' n radix
      · exact List.append_ne_nil_of_left_ne_nil hnonempty _
      · intro hzero
        rw [List.head?_append_of_ne_nil _ hnonempty] at hzero
        rw [hlead hzero, fromDigits, List.foldl_cons, Nat.zero_mul] at hvalue
        exact absurd hvalue.symm hpos.ne'

theorem readNumber_toDigits {maxDigits : Option Nat} {allowZeroPrefix : Bool} (hradix : 1 < radix)
    (hsixteen : radix ≤ 16) (hlimit : n < limit)
    (hmax : ∀ most ∈ maxDigits, 0 < most ∧ n < radix ^ most) (hrest : Stops radix rest) :
    readNumber radix limit maxDigits allowZeroPrefix (Nat.toDigits radix n ++ rest) =
      some (n, rest) := by
  obtain ⟨digits, htext, hdigits, hvalue, hnonempty, hlead⟩ := digitsOf hradix n
  have hfew : maxDigits.any (· < digits.length) ≠ true := by
    cases maxDigits with
    | none => exact Bool.false_ne_true
    | some most =>
      obtain ⟨hpos, hbound⟩ := hmax most rfl
      have hlength := (Nat.length_toDigits_le_iff hradix hpos).mpr hbound
      rw [htext, List.length_map] at hlength
      simpa using hlength
  have hprefix : ¬(allowZeroPrefix = false ∧
      (digits.map Nat.digitChar ++ rest).head? = some '0' ∧ 1 < digits.length) := by
    rintro ⟨-, hzero, hlong⟩
    obtain ⟨digit, digits, rfl⟩ := List.exists_cons_of_ne_nil hnonempty
    have hchar : Nat.digitChar digit = '0' := Option.some.inj hzero
    have hsame := toDigit_digitChar hsixteen (hdigits digit List.mem_cons_self)
    rw [hchar, ← show Nat.digitChar 0 = '0' from rfl,
      toDigit_digitChar hsixteen (Nat.zero_lt_of_lt hradix)] at hsame
    rw [hlead hsame.symm] at hlong
    exact absurd hlong (lt_irrefl 1)
  rw [htext, readNumber, digitSpan_digits hsixteen hdigits hrest]
  dsimp only
  rw [if_neg (not_or.mpr ⟨hnonempty, hfew⟩), if_neg hprefix, hvalue, if_neg (Nat.not_le.mpr hlimit)]

theorem readNumber_stops {maxDigits : Option Nat} {allowZeroPrefix : Bool}
    (h : Stops radix text) : readNumber radix limit maxDigits allowZeroPrefix text = none := by
  rw [readNumber, digitSpan_stops h]
  exact if_pos (.inl rfl)

theorem digitSpan_suffix (radix : Nat) (text : Text) : (digitSpan radix text).2 <:+ text := by
  induction text with
  | nil => exact List.suffix_rfl
  | cons c text ih =>
    rw [digitSpan]
    split
    · exact List.suffix_rfl
    · exact ih.trans (List.suffix_cons c text)

theorem readNumber_suffix {maxDigits : Option Nat} {allowZeroPrefix : Bool}
    (h : readNumber radix limit maxDigits allowZeroPrefix text = some (n, rest)) :
    rest <:+ text := by
  rw [readNumber] at h
  dsimp only at h
  split at h
  · cases h
  split at h
  · cases h
  split at h
  · cases h
  · cases h
    exact digitSpan_suffix radix text

theorem hexDigit_of_mem_toDigits {c : Char} (hradix : 1 < radix) (hsixteen : radix ≤ 16)
    (h : c ∈ Nat.toDigits radix n) : hexDigit c ≠ none := by
  obtain ⟨digits, htext, hdigits, -⟩ := digitsOf hradix n
  rw [htext] at h
  obtain ⟨digit, hdigit, rfl⟩ := List.mem_map.mp h
  rw [hexDigit_digitChar ((hdigits digit hdigit).trans_le hsixteen)]
  exact Option.some_ne_none _

theorem stops_cons {c : Char} (h : toDigit radix c = none) : Stops radix (c :: rest) := by
  intro d hd
  cases hd
  exact h

theorem readOctet_first (octet : UInt8) (h : Stops 10 rest) :
    readOctet 0 (decimal octet.toNat ++ rest) = some (octet, rest) := by
  have hlt := octet.toNat_lt
  have hmax : ∀ most ∈ some 3, 0 < most ∧ octet.toNat < 10 ^ most := by
    rintro most ⟨⟩
    omega
  rw [readOctet, readSeparator, if_pos rfl, decimal,
    readNumber_toDigits (by decide) (by decide) (by omega) hmax h]
  exact congrArg (fun octet => some (octet, rest)) UInt8.ofNat_toNat

theorem readOctet_later (index : Nat) (octet : UInt8) (h : Stops 10 rest) :
    readOctet (index + 1) ('.' :: decimal octet.toNat ++ rest) = some (octet, rest) := by
  rw [← readOctet_first octet h]
  rfl

theorem readIpv4Addr_display (ip : List.Vector UInt8 4) (h : Stops 10 rest) :
    readIpv4Addr (displayIpv4 ip.val ++ rest) = some (ip, rest) := by
  obtain ⟨octets, hlength⟩ := ip
  match octets, hlength with
  | [a, b, c, d], _ =>
    have hdot (text : Text) : Stops 10 ('.' :: text) := stops_cons (by decide)
    simp only [displayIpv4, List.flatMap_cons, List.flatMap_nil, List.append_nil, List.append_assoc,
      List.cons_append]
    rw [readIpv4Addr, readOctet_first a (hdot _)]
    simp only [Option.bind_eq_bind, Option.bind_some]
    rw [← List.cons_append, readOctet_later 0 b (hdot _)]
    simp only [Option.bind_some]
    rw [← List.cons_append, readOctet_later 1 c (hdot _)]
    simp only [Option.bind_some]
    rw [← List.cons_append, readOctet_later 2 d h]
    rfl

theorem readIpv4Addr_stops (h : Stops 10 text) : readIpv4Addr text = none := by
  rw [readIpv4Addr, readOctet, readSeparator, if_pos rfl, readNumber_stops h]
  rfl

theorem readIpv4Addr_eq_none (h : '.' ∉ text) : readIpv4Addr text = none := by
  cases hfirst : readOctet 0 text with
  | none => rw [readIpv4Addr, hfirst]; rfl
  | some first =>
    obtain ⟨octet, rest⟩ := first
    have hdot : '.' ∉ rest := by
      rw [readOctet, readSeparator, if_pos rfl] at hfirst
      obtain ⟨⟨value, left⟩, hread, hsame⟩ := Option.bind_eq_some_iff.mp hfirst
      cases hsame
      exact fun hmem => h ((readNumber_suffix hread).subset hmem)
    have hsecond : readOctet 1 rest = none := by
      cases rest with
      | nil => rfl
      | cons c rest =>
        rw [readOctet, readSeparator, if_neg Nat.one_ne_zero, readGivenChar,
          if_neg fun (hc : c = '.') => hdot (hc ▸ List.mem_cons_self)]
        rfl
    rw [readIpv4Addr, hfirst]
    simp only [Option.bind_eq_bind, Option.bind_some, hsecond, Option.bind_none]

theorem length_segmentsOf {octets : List UInt8} {k : Nat} (h : octets.length = 2 * k) :
    (segmentsOf octets).length = k ∧ octetsOf (segmentsOf octets) = octets ∧
      ∀ segment ∈ segmentsOf octets, segment < 65536 := by
  induction k generalizing octets with
  | zero =>
    rw [List.length_eq_zero_iff.mp h]
    exact ⟨rfl, rfl, nofun⟩
  | succ k ih =>
    match octets, h with
    | high :: low :: octets, h =>
      have hhigh := high.toNat_lt
      have hlow := low.toNat_lt
      obtain ⟨hlength, hoctets, hsmall⟩ := @ih octets (by simp at h; omega)
      have hdiv : (high.toNat * 256 + low.toNat) / 256 = high.toNat := by omega
      have hof : UInt8.ofNat (high.toNat * 256 + low.toNat) = low := by
        apply UInt8.toNat_inj.mp
        rw [UInt8.toNat_ofNat']
        omega
      refine ⟨congrArg (· + 1) hlength, ?_, ?_⟩
      · rw [segmentsOf, octetsOf, List.flatMap_cons, hdiv, hof, UInt8.ofNat_toNat]
        exact congrArg (high :: low :: ·) hoctets
      · rintro segment (_ | ⟨_, hsegment⟩)
        · omega
        · exact hsmall segment hsegment

theorem ofSegments_segmentsOf (ip : List.Vector UInt8 16) :
    ofSegments (segmentsOf ip.val) = some ip := by
  have hoctets := (length_segmentsOf (k := 8) ip.property).2.1
  have hlength : (octetsOf (segmentsOf ip.val)).length = 16 := by
    rw [hoctets]
    exact ip.property
  rw [ofSegments, dif_pos hlength]
  exact congrArg some (Subtype.ext hoctets)

def Ends (text : Text) : Prop := ∀ index, readGroup index text = none

theorem ends_cons {c : Char} (hdigit : toDigit 16 c = none) (hcolon : c ≠ ':') :
    Ends (c :: rest) := by
  intro index
  rw [readGroup, readSeparator]
  split
  · exact readNumber_stops (stops_cons hdigit)
  · rw [readGivenChar, if_neg hcolon]
    rfl

theorem ends_colons : Ends (':' :: ':' :: rest) := by
  intro index
  have hstops (text : Text) : Stops 16 (':' :: text) := stops_cons (by decide)
  rw [readGroup, readSeparator]
  split
  · exact readNumber_stops (hstops _)
  · exact (readNumber_stops (hstops rest) : readNumber 16 65536 (some 4) true _ = none)

theorem readSeparator_ipv4 (index : Nat) (h : '.' ∉ text) :
    readSeparator ':' index readIpv4Addr text = none := by
  rw [readSeparator]
  split
  · exact readIpv4Addr_eq_none h
  · cases text with
    | nil => rfl
    | cons c text =>
      rw [readGivenChar]
      split
      · exact readIpv4Addr_eq_none fun hmem => h (List.mem_cons_of_mem _ hmem)
      · rfl

theorem readGroups_succ (remaining : Nat) (groups : List Nat) (h : '.' ∉ text) :
    readGroups (remaining + 1) groups text =
      match readGroup groups.length text with
      | some (group, rest) => readGroups remaining (groups ++ [group]) rest
      | none => (groups, false, text) := by
  have hnone : (if 0 < remaining then readSeparator ':' groups.length readIpv4Addr text else none) =
      none := by
    rw [readSeparator_ipv4 _ h]
    exact ite_self none
  rw [readGroups, hnone]

theorem readGroups_ends (remaining : Nat) (groups : List Nat) (hdot : '.' ∉ text) (h : Ends text) :
    readGroups remaining groups text = (groups, false, text) := by
  cases remaining with
  | zero => rfl
  | succ remaining => rw [readGroups_succ remaining groups hdot, h]

theorem readGroup_first {segment : Nat} (hsegment : segment < 65536) (h : Stops 16 rest) :
    readGroup 0 (hex segment ++ rest) = some (segment, rest) := by
  have hmax : ∀ most ∈ some 4, 0 < most ∧ segment < 16 ^ most := by
    rintro most ⟨⟩
    omega
  rw [readGroup, readSeparator, if_pos rfl, hex,
    readNumber_toDigits (by decide) le_rfl hsegment hmax h]

theorem readGroup_later {index segment : Nat} (hindex : index ≠ 0) (hsegment : segment < 65536)
    (h : Stops 16 rest) : readGroup index (':' :: hex segment ++ rest) = some (segment, rest) := by
  rw [← readGroup_first hsegment h, readGroup, readSeparator, if_neg hindex]
  rfl

theorem stops_flatMap (h : Stops 16 rest) :
    Stops 16 ((segments.flatMap fun segment => ':' :: hex segment) ++ rest) := by
  cases segments with
  | nil => exact h
  | cons segment segments => exact stops_cons (by decide)

theorem mem_flatMap_hex {c : Char} (h : c ∈ segments.flatMap fun segment => ':' :: hex segment) :
    c = ':' ∨ hexDigit c ≠ none := by
  obtain ⟨segment, -, hmem⟩ := List.mem_flatMap.mp h
  rcases List.mem_cons.mp hmem with hcolon | hhex
  · exact .inl hcolon
  · exact .inr (hexDigit_of_mem_toDigits (by decide) le_rfl hhex)

theorem mem_fmtSubslice {c : Char} (h : c ∈ fmtSubslice segments) :
    c = ':' ∨ hexDigit c ≠ none := by
  cases segments with
  | nil => cases h
  | cons segment segments =>
    rcases List.mem_append.mp h with hfirst | htail
    · exact .inr (hexDigit_of_mem_toDigits (by decide) le_rfl hfirst)
    · exact mem_flatMap_hex htail

theorem dot_flatMap_hex (h : '.' ∉ rest) :
    '.' ∉ (segments.flatMap fun segment => ':' :: hex segment) ++ rest := by
  intro hmem
  rcases List.mem_append.mp hmem with hgroups | hrest
  · exact absurd (mem_flatMap_hex hgroups) (by decide)
  · exact h hrest

theorem dot_fmtSubslice (h : '.' ∉ rest) : '.' ∉ fmtSubslice segments ++ rest := by
  intro hmem
  rcases List.mem_append.mp hmem with hgroups | hrest
  · exact absurd (mem_fmtSubslice hgroups) (by decide)
  · exact h hrest

theorem readGroups_flatMap {remaining : Nat} {groups : List Nat} (hgroups : groups ≠ [])
    (hfew : segments.length ≤ remaining) (hsmall : ∀ segment ∈ segments, segment < 65536)
    (hdot : '.' ∉ rest) (h : Stops 16 rest) :
    readGroups remaining groups ((segments.flatMap fun segment => ':' :: hex segment) ++ rest) =
      readGroups (remaining - segments.length) (groups ++ segments) rest := by
  induction segments generalizing remaining groups with
  | nil => rw [List.append_nil]; rfl
  | cons segment segments ih =>
    obtain ⟨remaining, rfl⟩ := Nat.exists_eq_succ_of_ne_zero (Nat.ne_zero_of_lt hfew)
    rw [readGroups_succ _ _ (dot_flatMap_hex hdot), List.flatMap_cons, List.append_assoc,
      readGroup_later (mt List.length_eq_zero_iff.mp hgroups) (hsmall segment List.mem_cons_self)
        (stops_flatMap h)]
    dsimp only
    rw [ih (List.append_ne_nil_of_right_ne_nil _ (List.cons_ne_nil _ _))
      (Nat.le_of_succ_le_succ hfew) fun s hs => hsmall s (List.mem_cons_of_mem _ hs),
      List.append_assoc, List.length_cons, Nat.succ_sub_succ]
    rfl

theorem readGroups_fmtSubslice {remaining : Nat} (hfew : segments.length ≤ remaining)
    (hsmall : ∀ segment ∈ segments, segment < 65536) (hdot : '.' ∉ rest) (hstops : Stops 16 rest)
    (hends : Ends rest) :
    readGroups remaining [] (fmtSubslice segments ++ rest) = (segments, false, rest) := by
  cases segments with
  | nil => exact readGroups_ends remaining [] hdot hends
  | cons segment segments =>
    obtain ⟨remaining, rfl⟩ := Nat.exists_eq_succ_of_ne_zero (Nat.ne_zero_of_lt hfew)
    rw [readGroups_succ _ _ (dot_fmtSubslice hdot), fmtSubslice, List.append_assoc, List.length_nil,
      readGroup_first (hsmall segment List.mem_cons_self) (stops_flatMap hstops)]
    dsimp only
    rw [List.nil_append, readGroups_flatMap (List.cons_ne_nil _ _) (Nat.le_of_succ_le_succ hfew)
      (fun s hs => hsmall s (List.mem_cons_of_mem _ hs)) hdot hstops]
    exact readGroups_ends _ _ hdot hends

def ZeroTail (done : List Nat) (span : Span) : Prop := ∃ before,
  done = before ++ List.replicate span.len 0 ∧ (0 < span.len → before.length = span.start)

def ZeroSpan (segments : List Nat) (span : Span) : Prop := ∃ before after,
  segments = before ++ List.replicate span.len 0 ++ after ∧
    (0 < span.len → before.length = span.start)

variable {done : List Nat} {span current longest : Span}

theorem ZeroTail.zeroSpan (h : ZeroTail done span) : ZeroSpan done span := by
  obtain ⟨before, hdone, hstart⟩ := h
  exact ⟨before, [], by rw [List.append_nil]; exact hdone, hstart⟩

theorem ZeroTail.none (done : List Nat) : ZeroTail done ⟨0, 0⟩ :=
  ⟨done, (List.append_nil done).symm, nofun⟩

theorem ZeroTail.zero (h : ZeroTail done span) : ZeroTail (done ++ [0])
    ⟨if span.len = 0 then done.length else span.start, span.len + 1⟩ := by
  obtain ⟨before, hdone, hstart⟩ := h
  refine ⟨before, ?_, fun _ => ?_⟩
  · rw [hdone, List.append_assoc]
    exact congrArg (before ++ ·) List.replicate_succ'.symm
  · split
    · next hempty =>
      rw [hdone, hempty]
      exact congrArg List.length (List.append_nil before).symm
    · next hlong => exact hstart (Nat.pos_of_ne_zero hlong)

theorem ZeroSpan.extend (h : ZeroSpan done span) (more : List Nat) :
    ZeroSpan (done ++ more) span := by
  obtain ⟨before, after, hdone, hstart⟩ := h
  exact ⟨before, after ++ more, by rw [hdone, List.append_assoc], hstart⟩

theorem longestZeros_span (hcurrent : ZeroTail done current) (hlongest : ZeroSpan done longest) :
    ZeroSpan (done ++ segments) (longestZeros done.length current longest segments) := by
  induction segments generalizing done current longest with
  | nil => exact hlongest.extend []
  | cons segment segments ih =>
    have hlength : done.length + 1 = (done ++ [segment]).length := by
      rw [List.length_append, List.length_singleton]
    rw [longestZeros, List.append_cons, hlength]
    split
    · next hzero =>
      subst hzero
      apply ih hcurrent.zero
      dsimp only
      split
      · exact hcurrent.zero.zeroSpan
      · exact hlongest.extend [0]
    · exact ih (.none _) (hlongest.extend [segment])

theorem ZeroSpan.split (h : ZeroSpan segments span) (hlen : 0 < span.len) :
    segments = segments.take span.start ++ List.replicate span.len 0 ++
      segments.drop (span.start + span.len) := by
  obtain ⟨before, after, rfl, hstart⟩ := h
  rw [← hstart hlen, List.append_assoc, List.take_left, ← List.append_assoc,
    List.drop_left' (by rw [List.length_append, List.length_replicate])]

theorem longestZeros_split (h : 1 < (longestZeros 0 ⟨0, 0⟩ ⟨0, 0⟩ segments).len) :
    segments = segments.take (longestZeros 0 ⟨0, 0⟩ ⟨0, 0⟩ segments).start ++
      List.replicate (longestZeros 0 ⟨0, 0⟩ ⟨0, 0⟩ segments).len 0 ++
      segments.drop ((longestZeros 0 ⟨0, 0⟩ ⟨0, 0⟩ segments).start +
        (longestZeros 0 ⟨0, 0⟩ ⟨0, 0⟩ segments).len) := by
  have hspan : ZeroSpan ([] ++ segments) (longestZeros 0 ⟨0, 0⟩ ⟨0, 0⟩ segments) :=
    longestZeros_span (.none []) (ZeroTail.none []).zeroSpan
  exact hspan.split (Nat.zero_lt_of_lt h)

theorem readGroups_mapped (octets : List.Vector UInt8 4) (hstops : Stops 10 rest) :
    readGroups 7 [] ("ffff:".toList ++ displayIpv4 octets.val ++ rest) =
      (65535 :: segmentsOf octets.val, true, rest) := by
  have htext : "ffff:".toList ++ displayIpv4 octets.val ++ rest =
      hex 65535 ++ ':' :: (displayIpv4 octets.val ++ rest) := rfl
  have hnone : readIpv4Addr (hex 65535 ++ ':' :: (displayIpv4 octets.val ++ rest)) = none :=
    readIpv4Addr_stops (stops_cons (by decide))
  have hipv4 : readSeparator ':' 1 readIpv4Addr (':' :: (displayIpv4 octets.val ++ rest)) =
      some (octets, rest) := readIpv4Addr_display octets hstops
  rw [htext, readGroups, if_pos (by decide), List.length_nil, readSeparator, if_pos rfl, hnone]
  dsimp only
  rw [readGroup_first (by decide) (stops_cons (by decide))]
  dsimp only
  rw [readGroups, if_pos (by decide)]
  dsimp only [List.nil_append, List.length_singleton]
  rw [hipv4]
  rfl

theorem readIpv6Addr_mapped (ip : List.Vector UInt8 16)
    (hmapped : ip.val.take 12 = List.replicate 10 0 ++ [255, 255]) (hstops : Stops 10 rest) :
    readIpv6Addr ("::ffff:".toList ++ displayIpv4 (ip.val.drop 12) ++ rest) = some (ip, rest) := by
  obtain ⟨octets, hoctets⟩ : ∃ octets : List.Vector UInt8 4, octets.val = ip.val.drop 12 :=
    ⟨⟨_, by rw [List.length_drop, ip.property]⟩, rfl⟩
  have htwo : (segmentsOf octets.val).length = 2 := (length_segmentsOf octets.property).1
  have hsegments : segmentsOf ip.val = List.replicate 5 0 ++ 65535 :: segmentsOf octets.val := by
    rw [← List.take_append_drop 12 ip.val, hmapped, hoctets]
    rfl
  have hcolon (text : Text) : Stops 10 (':' :: text) ∧ Stops 16 (':' :: text) :=
    ⟨stops_cons (by decide), stops_cons (by decide)⟩
  have hhead (text : Text) : readGroups 8 [] (':' :: text) = ([], false, ':' :: text) := by
    rw [readGroups, if_pos (by decide), List.length_nil, readSeparator, if_pos rfl,
      readIpv4Addr_stops (hcolon text).1]
    dsimp only
    rw [readGroup, readSeparator, if_pos rfl, readNumber_stops (hcolon text).2]
  rw [← hoctets]
  change readIpv6Addr (':' :: ':' :: ("ffff:".toList ++ displayIpv4 octets.val ++ rest)) = _
  rw [readIpv6Addr, hhead]
  dsimp only
  rw [if_neg (by decide), if_neg Bool.false_ne_true]
  simp only [readGivenChar, Option.bind_eq_bind, Option.bind_some, if_true]
  rw [List.length_nil, readGroups_mapped octets hstops]
  dsimp only
  rw [List.length_cons, htwo, List.nil_append, ← hsegments, ofSegments_segmentsOf]
  rfl

theorem readIpv6Addr_groups (ip : List.Vector UInt8 16) (hdot : '.' ∉ rest)
    (hstops : Stops 16 rest) (hends : Ends rest) :
    readIpv6Addr (fmtSubslice (segmentsOf ip.val) ++ rest) = some (ip, rest) := by
  obtain ⟨hlength, -, hsmall⟩ := length_segmentsOf (k := 8) ip.property
  rw [readIpv6Addr, readGroups_fmtSubslice hlength.le hsmall hdot hstops hends]
  dsimp only
  rw [if_pos hlength, ofSegments_segmentsOf]
  rfl

theorem readIpv6Addr_compressed (ip : List.Vector UInt8 16) {before after : List Nat} {zeros : Nat}
    (hsplit : segmentsOf ip.val = before ++ List.replicate zeros 0 ++ after) (hzeros : 1 < zeros)
    (hdot : '.' ∉ rest) (hstops : Stops 16 rest) (hends : Ends rest) :
    readIpv6Addr (fmtSubslice before ++ "::".toList ++ fmtSubslice after ++ rest) =
      some (ip, rest) := by
  obtain ⟨hlength, -, hsmall⟩ := length_segmentsOf (k := 8) ip.property
  rw [hsplit, List.length_append, List.length_append, List.length_replicate] at hlength
  rw [hsplit] at hsmall
  have hafter : '.' ∉ fmtSubslice after ++ rest := dot_fmtSubslice hdot
  have hcolons : '.' ∉ ':' :: ':' :: (fmtSubslice after ++ rest) := by simpa using hafter
  have hhead : readGroups 8 [] (fmtSubslice before ++ ':' :: ':' :: (fmtSubslice after ++ rest)) =
      (before, false, ':' :: ':' :: (fmtSubslice after ++ rest)) :=
    readGroups_fmtSubslice (by omega) (fun segment hmem => hsmall segment (by simp [hmem])) hcolons
      (stops_cons (by decide)) ends_colons
  have htail : readGroups (8 - (before.length + 1)) [] (fmtSubslice after ++ rest) =
      (after, false, rest) :=
    readGroups_fmtSubslice (by omega) (fun segment hmem => hsmall segment (by simp [hmem])) hdot
      hstops hends
  have htext : fmtSubslice before ++ "::".toList ++ fmtSubslice after ++ rest =
      fmtSubslice before ++ ':' :: ':' :: (fmtSubslice after ++ rest) := by simp
  have hrun : 8 - after.length - before.length = zeros := by omega
  rw [htext, readIpv6Addr, hhead]
  dsimp only
  rw [if_neg (by omega), if_neg Bool.false_ne_true]
  simp only [readGivenChar, Option.bind_eq_bind, Option.bind_some, if_true]
  rw [htail]
  dsimp only
  rw [hrun, ← hsplit, ofSegments_segmentsOf]
  rfl

structure AfterIp (text : Text) : Prop where
  dot : '.' ∉ text
  decimal : Stops 10 text
  hex : Stops 16 text
  ends : Ends text

theorem readIpv6Addr_display (ip : List.Vector UInt8 16) (h : AfterIp rest) :
    readIpv6Addr (displayIpv6 ip.val ++ rest) = some (ip, rest) := by
  rw [displayIpv6]
  split
  · next hmapped => exact readIpv6Addr_mapped ip hmapped h.decimal
  · dsimp only
    split
    · next hlong =>
      exact readIpv6Addr_compressed ip (longestZeros_split hlong) hlong h.dot h.hex h.ends
    · exact readIpv6Addr_groups ip h.dot h.hex h.ends

theorem mem_decimal {c : Char} (h : c ∈ decimal n) : hexDigit c ≠ none :=
  hexDigit_of_mem_toDigits (by decide) (by decide) h

theorem readPort_display (port : UInt16) :
    readPort (':' :: decimal port.toNat) = some (port.toNat, []) := by
  have hread : readNumber 10 (2 ^ 16) none true (Nat.toDigits 10 port.toNat ++ []) =
      some (port.toNat, []) :=
    readNumber_toDigits (by decide) (by decide) port.toNat_lt nofun nofun
  rw [List.append_nil] at hread
  exact hread

theorem readScopeId_display (scopeId : UInt32) (h : Stops 10 rest) :
    readScopeId ('%' :: decimal scopeId.toNat ++ rest) = some (scopeId.toNat, rest) :=
  readNumber_toDigits (by decide) (by decide) scopeId.toNat_lt nofun h

def PlainChar (c : Char) : Prop := c ∈ ['.', ':', '%', '[', ']'] ∨ hexDigit c ≠ none

instance : DecidablePred PlainChar := fun _ => inferInstanceAs (Decidable (_ ∨ _))

theorem forall_of_all {p : Char → Prop} [DecidablePred p]
    (h : text.all (fun c => decide (p c)) = true) : ∀ c ∈ text, p c := fun c hc =>
  of_decide_eq_true (List.all_eq_true.mp h c hc)

theorem displayIpv4_chars (octets : List UInt8) : ∀ c ∈ displayIpv4 octets, PlainChar c := by
  cases octets with
  | nil => exact nofun
  | cons first octets =>
    refine List.forall_mem_append.mpr ⟨fun _ hc => .inr (mem_decimal hc), fun c hc => ?_⟩
    obtain ⟨octet, -, hmem⟩ := List.mem_flatMap.mp hc
    rcases List.mem_cons.mp hmem with rfl | hdigit
    · exact .inl (by decide)
    · exact .inr (mem_decimal hdigit)

theorem fmtSubslice_chars (segments : List Nat) : ∀ c ∈ fmtSubslice segments, PlainChar c := by
  intro c hc
  rcases mem_fmtSubslice hc with rfl | hhex
  · exact .inl (by decide)
  · exact .inr hhex

theorem displayIpv6_chars (octets : List UInt8) : ∀ c ∈ displayIpv6 octets, PlainChar c := by
  have hmapped : ∀ c ∈ "::ffff:".toList, PlainChar c := forall_of_all (by decide)
  have hcolons : ∀ c ∈ "::".toList, PlainChar c := forall_of_all (by decide)
  rw [displayIpv6]
  split
  · exact List.forall_mem_append.mpr ⟨hmapped, displayIpv4_chars _⟩
  · dsimp only
    split
    · exact List.forall_mem_append.mpr ⟨List.forall_mem_append.mpr
        ⟨fmtSubslice_chars _, hcolons⟩, fmtSubslice_chars _⟩
    · exact fmtSubslice_chars _

theorem afterIp_port (port : UInt16) : AfterIp (']' :: ':' :: decimal port.toNat) where
  dot := by
    rintro (_ | ⟨_, _ | ⟨_, hdot⟩⟩)
    exact mem_decimal hdot (by decide)
  decimal := stops_cons (by decide)
  hex := stops_cons (by decide)
  ends := ends_cons (by decide) (by decide)

theorem afterIp_scopeId (scopeId : UInt32) (h : '.' ∉ rest) :
    AfterIp ('%' :: decimal scopeId.toNat ++ rest) where
  dot := by
    rintro (_ | ⟨_, hdot⟩)
    rcases List.mem_append.mp hdot with hdot | hdot
    · exact mem_decimal hdot (by decide)
    · exact h hdot
  decimal := stops_cons (by decide)
  hex := stops_cons (by decide)
  ends := ends_cons (by decide) (by decide)

namespace SocketAddr

theorem readV4_display (ip : List.Vector UInt8 4) (port : UInt16) :
    readV4 (v4 ip port).display = some (v4 ip port, []) := by
  rw [readV4, display, readIpv4Addr_display ip (stops_cons (by decide))]
  simp only [Option.bind_eq_bind, Option.bind_some, readPort_display, UInt16.ofNat_toNat]

theorem readV6_display (ip : List.Vector UInt8 16) (port : UInt16) (scopeId : UInt32) :
    readV6 (v6 ip port scopeId).display = some (v6 ip port scopeId, []) := by
  have hport := afterIp_port port
  by_cases hscope : scopeId = 0
  · subst hscope
    have htext : (v6 ip port 0).display =
        '[' :: (displayIpv6 ip.val ++ ']' :: ':' :: decimal port.toNat) := by
      rw [display, if_pos rfl, List.append_nil, List.cons_append]
    rw [htext, readV6]
    simp only [readGivenChar, if_true, Option.bind_eq_bind, Option.bind_some,
      readIpv6Addr_display ip hport]
    rw [show readScopeId (']' :: ':' :: decimal port.toNat) = none from rfl]
    simp only [Option.getD_none, if_true, Option.bind_some, readPort_display,
      UInt16.ofNat_toNat]
    rfl
  · have htext : (v6 ip port scopeId).display = '[' :: (displayIpv6 ip.val ++
        ('%' :: decimal scopeId.toNat ++ ']' :: ':' :: decimal port.toNat)) := by
      rw [display, if_neg hscope, List.append_assoc, List.cons_append]
    rw [htext, readV6]
    simp only [readGivenChar, if_true, Option.bind_eq_bind, Option.bind_some,
      readIpv6Addr_display ip (afterIp_scopeId scopeId hport.dot),
      readScopeId_display scopeId hport.decimal]
    simp only [Option.getD_some, if_true, Option.bind_some, readPort_display,
      UInt16.ofNat_toNat, UInt32.ofNat_toNat]

theorem fromStr_display (endpoint : SocketAddr) : fromStr endpoint.display = some endpoint := by
  cases endpoint with
  | v4 ip port => rw [fromStr, readV4_display]; rfl
  | v6 ip port scopeId =>
    have hv4 : readV4 (v6 ip port scopeId).display = none := by
      rw [readV4, display, List.cons_append, List.cons_append,
        readIpv4Addr_stops (stops_cons (by decide))]
      rfl
    rw [fromStr, hv4, Option.none_or, readV6_display]

theorem display_chars (endpoint : SocketAddr) : ∀ c ∈ endpoint.display, PlainChar c := by
  have hport (port : UInt16) : ∀ c ∈ ':' :: decimal port.toNat, PlainChar c :=
    List.forall_mem_cons.mpr ⟨.inl (by decide), fun _ hc => .inr (mem_decimal hc)⟩
  cases endpoint with
  | v4 ip port => exact List.forall_mem_append.mpr ⟨displayIpv4_chars ip.val, hport port⟩
  | v6 ip port scopeId =>
    have hscope : ∀ c ∈ if scopeId = 0 then [] else '%' :: decimal scopeId.toNat,
        PlainChar c := by
      split
      · exact nofun
      · exact List.forall_mem_cons.mpr ⟨.inl (by decide), fun _ hc => .inr (mem_decimal hc)⟩
    rw [display, List.cons_append, List.cons_append]
    refine List.forall_mem_cons.mpr ⟨.inl (by decide), List.forall_mem_append.mpr ⟨?_, ?_⟩⟩
    · exact List.forall_mem_append.mpr ⟨displayIpv6_chars ip.val, hscope⟩
    · exact List.forall_mem_cons.mpr ⟨.inl (by decide), hport port⟩

example : (v6 ⟨[0xfd, 0, 0, 0, 0, 0, 0, 0, 0, 0, 0, 0, 0, 5, 0, 10], rfl⟩ 80 0).display =
    "[fd00::5:a]:80".toList := by decide

example : fromStr "192.168.1.10:45233".toList = some (v4 ⟨[192, 168, 1, 10], rfl⟩ 45233) := by
  decide

end SocketAddr

end ClipFerry.Settings
