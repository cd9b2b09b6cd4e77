import Mathlib.Data.List.AList

/-!
# Maps of strings in JSON

An object with strings for its values, as it is written and as it is read back. Of a member
that is there twice the last counts. Reading what is written gives the map again
(`lookup_of_fromStr_toStr`), and an empty text is not read.
-/

namespace SteamWire.Json

/-- A map from strings to strings. -/
abbrev StringMap := AList fun _ : String => String

/-! ### Strings -/

def hexDigit (n : Nat) : Char := if n < 10 then Char.ofNat (48 + n) else Char.ofNat (87 + n)

def hexVal (c : Char) : Option Nat :=
  let n := c.toNat
  if 48 ≤ n ∧ n ≤ 57 then some (n - 48)
  else if 97 ≤ n ∧ n ≤ 102 then some (n - 87)
  else if 65 ≤ n ∧ n ≤ 70 then some (n - 55)
  else none

def hex4 (a b c d : Char) : Option Nat :=
  (hexVal a).bind fun a => (hexVal b).bind fun b => (hexVal c).bind fun c =>
    (hexVal d).map fun d => ((a * 16 + b) * 16 + c) * 16 + d

/-- The escapes of one character. -/
def escapes : List (Char × Char) :=
  [('\"', '\"'), ('\\', '\\'), ('\n', 'n'), ('\r', 'r'), ('\t', 't'), (Char.ofNat 8, 'b'),
    (Char.ofNat 12, 'f')]

def escape (c : Char) : Option Char := (escapes.find? fun p => p.1 = c).map Prod.snd

def escapeChar (c : Char) : List Char :=
  match escape c with
  | some e => ['\\', e]
  | none =>
    -- the other control characters are given by their number
    if c.toNat < 32 then ['\\', 'u', '0', '0', hexDigit (c.toNat / 16), hexDigit (c.toNat % 16)]
    else [c]

def unescape (e : Char) : Option Char :=
  if e = '/' then some '/' else (escapes.find? fun p => p.2 = e).map Prod.fst

def isSurrogate (n : Nat) : Bool := 0xD800 ≤ n ∧ n ≤ 0xDFFF

/-- The character of a surrogate pair. -/
def surrogatePair (high low : Nat) : Option Char :=
  if high ≤ 0xDBFF ∧ 0xDC00 ≤ low ∧ low ≤ 0xDFFF then
    some (Char.ofNat (0x10000 + (high - 0xD800) * 0x400 + (low - 0xDC00)))
  else none

/-- Read up to the closing quote: the characters, and what is behind it. -/
def parseBody : List Char → Option (List Char × List Char)
  | [] => none
  | c :: cs =>
    if c = '\"' then some ([], cs)
    else if c = '\\' then
      match cs with
      -- half of a surrogate pair needs the other half behind it
      | 'u' :: h₁ :: h₂ :: h₃ :: h₄ :: cs =>
        match hex4 h₁ h₂ h₃ h₄ with
        | none => none
        | some high =>
          if isSurrogate high then
            match cs with
            | '\\' :: 'u' :: l₁ :: l₂ :: l₃ :: l₄ :: cs =>
              ((hex4 l₁ l₂ l₃ l₄).bind (surrogatePair high)).bind fun x =>
                (parseBody cs).map fun p => (x :: p.1, p.2)
            | _ => none
          else (parseBody cs).map fun p => (Char.ofNat high :: p.1, p.2)
      | e :: cs => (unescape e).bind fun x => (parseBody cs).map fun p => (x :: p.1, p.2)
      | [] => none
    -- a control character has to be escaped
    else if c.toNat < 32 then none
    else (parseBody cs).map fun p => (c :: p.1, p.2)
termination_by structural cs => cs

def writeString (s : String) : List Char := '\"' :: (s.toList.flatMap escapeChar ++ ['\"'])

def parseString : List Char → Option (String × List Char)
  | [] => none
  | c :: cs => if c = '\"' then (parseBody cs).map fun p => (String.ofList p.1, p.2) else none

theorem hexVal_hexDigit : ∀ n < 16, hexVal (hexDigit n) = some n := by decide

/-- The escapes are read back. -/
theorem unescape_of_escape {c e : Char} (h : escape c = some e) :
    unescape e = some c ∧ e ≠ 'u' := by
  have hall : ∀ p ∈ escapes, unescape p.2 = some p.1 ∧ p.2 ≠ 'u' := by decide
  obtain ⟨p, hp, rfl⟩ := Option.map_eq_some_iff.mp h
  have hc := List.find?_some hp
  rw [← of_decide_eq_true hc]
  exact hall p (List.mem_of_find?_eq_some hp)

theorem escape_eq_none {c : Char} (h : escape c = none) : c ≠ '\"' ∧ c ≠ '\\' := by
  constructor
  · rintro rfl
    exact absurd h (by decide)
  · rintro rfl
    exact absurd h (by decide)

theorem parseBody_escapeChar (c : Char) (rest : List Char) :
    parseBody (escapeChar c ++ rest) = (parseBody rest).map fun p => (c :: p.1, p.2) := by
  unfold escapeChar
  split
  case h_1 e he =>
    obtain ⟨hunescape, hu⟩ := unescape_of_escape he
    simp [parseBody, hunescape, hu]
  case h_2 hnone =>
    obtain ⟨hquote, hbackslash⟩ := escape_eq_none hnone
    split
    case isTrue hlt =>
      -- the four digits give the number back, and it is not a surrogate
      have hhigh := hexVal_hexDigit (c.toNat / 16) (by omega)
      have hlow := hexVal_hexDigit (c.toNat % 16) (by omega)
      have hzero : hexVal '0' = some 0 := by decide
      have hc : ((0 * 16 + 0) * 16 + c.toNat / 16) * 16 + c.toNat % 16 = c.toNat := by omega
      have hhex : hex4 '0' '0' (hexDigit (c.toNat / 16)) (hexDigit (c.toNat % 16)) =
          some c.toNat := by
        rw [hex4, hzero, hhigh, hlow]
        exact congrArg some hc
      have hsurrogate : isSurrogate c.toNat = false := by
        simp [isSurrogate]
        omega
      simp [parseBody, hhex, hsurrogate, Char.ofNat_toNat]
    case isFalse hge =>
      rw [List.singleton_append, parseBody.eq_def]
      simp only [hquote, hbackslash, hge, if_false]

theorem parseBody_flatMap (cs rest : List Char) :
    parseBody (cs.flatMap escapeChar ++ '\"' :: rest) = some (cs, rest) := by
  induction cs with
  | nil =>
    rw [List.flatMap_nil, List.nil_append, parseBody.eq_def]
    rfl
  | cons c cs ih =>
    rw [List.flatMap_cons, List.append_assoc, parseBody_escapeChar, ih]
    rfl

theorem parseString_writeString (s : String) (rest : List Char) :
    parseString (writeString s ++ rest) = some (s, rest) := by
  rw [writeString, List.cons_append, List.append_assoc, parseString, if_pos rfl]
  erw [parseBody_flatMap]
  simp

/-- A surrogate pair stands for one character. -/
example : parseBody ['\\', 'u', 'd', '8', '3', 'd', '\\', 'u', 'd', 'e', '0', '0', '\"', ','] =
    some ([Char.ofNat 0x1F600], [',']) := by decide

/-! ### Maps -/

def isWhitespace (c : Char) : Bool := c = ' ' || c = '\n' || c = '\t' || c = '\r'

def skipWhitespace (cs : List Char) : List Char := cs.dropWhile isWhitespace

/-- Read a key, the colon and the value behind it. -/
def parseMember (cs : List Char) : Option ((String × String) × List Char) :=
  (parseString (skipWhitespace cs)).bind fun key =>
    match skipWhitespace key.2 with
    | ':' :: cs => (parseString (skipWhitespace cs)).map fun value => ((key.1, value.1), value.2)
    | _ => none

/-- Read members up to the closing brace, at most as many as `fuel` says. -/
def parseMembers : Nat → List Char → Option (List (String × String) × List Char)
  | 0, _ => none
  | fuel + 1, cs =>
    (parseMember cs).bind fun member =>
      match skipWhitespace member.2 with
      | '\x7d' :: cs => some ([member.1], cs)
      | ',' :: cs => (parseMembers fuel cs).map fun p => (member.1 :: p.1, p.2)
      | _ => none

/-- Read an object, with nothing behind it. -/
def parseObject (cs : List Char) : Option (List (String × String)) :=
  match skipWhitespace cs with
  | '\x7b' :: cs =>
    (match skipWhitespace cs with
      | '\x7d' :: cs => some ([], cs)
      | cs' => parseMembers cs'.length cs').bind fun p =>
        if skipWhitespace p.2 = [] then some p.1 else none
  | _ => none

def writeMember (member : String × String) : List Char :=
  writeString member.1 ++ ':' :: writeString member.2

/-- The members, and the closing brace. -/
def writeMembers : List (String × String) → List Char
  | [] => ['\x7d']
  | [member] => writeMember member ++ ['\x7d']
  | member :: members => writeMember member ++ ',' :: writeMembers members

def writeObject (members : List (String × String)) : List Char := '\x7b' :: writeMembers members

theorem skipWhitespace_writeString (s : String) (rest : List Char) :
    skipWhitespace (writeString s ++ rest) = writeString s ++ rest := rfl

theorem parseMember_writeMember (member : String × String) (rest : List Char) :
    parseMember (writeMember member ++ rest) = some (member, rest) := by
  rw [parseMember, writeMember, List.append_assoc, skipWhitespace_writeString,
    parseString_writeString]
  change (parseString (skipWhitespace (writeString member.2 ++ rest))).map _ = _
  rw [skipWhitespace_writeString, parseString_writeString]
  rfl

theorem length_le_length_writeMembers (members : List (String × String)) :
    members.length ≤ (writeMembers members).length := by
  induction members using writeMembers.induct with
  | case1 => exact Nat.zero_le _
  | case2 member => simp [writeMembers]
  | case3 member members _ ih =>
    simp only [writeMembers, List.length_append, List.length_cons]
    omega

theorem parseMembers_writeMembers {members : List (String × String)} (hne : members ≠ [])
    {fuel : Nat} (hfuel : members.length ≤ fuel) :
    parseMembers fuel (writeMembers members) = some (members, []) := by
  induction members using writeMembers.induct generalizing fuel with
  | case1 => exact absurd rfl hne
  | case2 member =>
    obtain ⟨fuel, rfl⟩ := Nat.exists_eq_add_of_le' (show 1 ≤ fuel from hfuel)
    rw [writeMembers, parseMembers, parseMember_writeMember]
    rfl
  | case3 member members hmembers ih =>
    obtain ⟨fuel, rfl⟩ := Nat.exists_eq_add_of_le' (Nat.le_of_add_left_le hfuel)
    rw [writeMembers.eq_3 _ _ hmembers, parseMembers, parseMember_writeMember]
    change (parseMembers fuel (writeMembers members)).map _ = _
    rw [ih hmembers (Nat.le_of_succ_le_succ hfuel)]
    rfl

theorem skipWhitespace_writeMembers (members : List (String × String)) :
    skipWhitespace (writeMembers members) = writeMembers members := by
  cases members using writeMembers.fun_cases with
  | case1 => rfl
  | case2 member => rfl
  | case3 member members hmembers => rw [writeMembers.eq_3 _ _ hmembers]; rfl

theorem exists_writeMembers_cons (member : String × String) (members : List (String × String)) :
    ∃ cs, writeMembers (member :: members) = '\"' :: cs := by
  cases members with
  | nil => exact ⟨_, rfl⟩
  | cons => exact ⟨_, rfl⟩

/-- What is written is read back. -/
theorem parseObject_writeObject (members : List (String × String)) :
    parseObject (writeObject members) = some members := by
  change (match skipWhitespace (writeMembers members) with
    | '\x7d' :: cs => some ([], cs)
    | cs' => parseMembers cs'.length cs').bind _ = _
  rw [skipWhitespace_writeMembers]
  cases members with
  | nil => rfl
  | cons member members =>
    have hread := parseMembers_writeMembers (List.cons_ne_nil member members)
      (length_le_length_writeMembers _)
    obtain ⟨cs, hcs⟩ := exists_writeMembers_cons member members
    rw [hcs] at hread ⊢
    change (parseMembers ('\"' :: cs).length ('\"' :: cs)).bind _ = _
    rw [hread]
    rfl

/-- Insert the members one after the other. -/
def ofMembers (members : List (String × String)) : StringMap :=
  (members.reverse.map fun member => ⟨member.1, member.2⟩).toAList

def toStr (map : StringMap) : String :=
  String.ofList (writeObject (map.entries.map fun entry => (entry.1, entry.2)))

def fromStr (raw : String) : Option StringMap := (parseObject raw.toList).map ofMembers

/-- Reading what is written gives the values of all keys. -/
theorem lookup_of_fromStr_toStr (map : StringMap) :
    ∃ map', fromStr (toStr map) = some map' ∧ ∀ key, map'.lookup key = map.lookup key := by
  refine ⟨_, by rw [fromStr, toStr, String.toList_ofList, parseObject_writeObject]; rfl, ?_⟩
  intro key
  -- what was written is inserted in the reverse order
  have hentries : ((map.entries.map fun entry => (entry.1, entry.2)).reverse.map
      fun member => (⟨member.1, member.2⟩ : Sigma fun _ : String => String)) =
        map.entries.reverse := by
    rw [← List.map_reverse, List.map_map]
    exact List.map_id _
  rw [ofMembers, hentries, AList.lookup_to_alist]
  -- the keys are distinct, so the order does not matter
  have hperm := List.reverse_perm map.entries
  exact List.perm_dlookup key ((List.perm_nodupKeys hperm).mpr map.nodupKeys) hperm

theorem fromStr_empty : fromStr "" = none := rfl

end SteamWire.Json
