import StructModel.Json.Reader
import StructModel.Json.Writer

/-!
# Reading written JSON

The pretty text of a value without numbers is read back as this value, whatever comes behind it. A
string is read character by character, each one from its escape. An array or an object is read along
the brackets and commas that were written, the depth of the lines being of no account.
-/

namespace StructModel.Json

mutual

/-- Whether a value has no number in it. -/
def isNumberless : Json → Bool
  | .number _ => false
  | .array items => numberlessItems items
  | .object members => numberlessMembers members
  | .null | .bool _ | .string _ => true

def numberlessItems : List Json → Bool
  | [] => true
  | v :: vs => v.isNumberless && numberlessItems vs

def numberlessMembers : List JsonMember → Bool
  | [] => true
  | ⟨_, v⟩ :: ms => v.isNumberless && numberlessMembers ms

end

section Strings

/-- A character is written by a letter behind a backslash, by its code, or as it is. -/
theorem escapedChar_cases (c : Char) :
    (∃ e, escapedChar c = ['\\', e] ∧ letterEscape? e = some c) ∨
      (c.toNat < 32 ∧ escapedChar c = '\\' :: 'u' :: '0' :: '0' :: hexPair c.toNat) ∨
      (32 ≤ c.toNat ∧ c ≠ '"' ∧ c ≠ '\\' ∧ escapedChar c = [c]) := by
  by_cases hletter : c ∈ ['"', '\\', '\x08', '\x0c', '\n', '\r', '\t']
  · left
    simp only [List.mem_cons, List.not_mem_nil, or_false] at hletter
    rcases hletter with rfl | rfl | rfl | rfl | rfl | rfl | rfl <;> exact ⟨_, rfl, rfl⟩
  · right
    simp only [List.mem_cons, List.not_mem_nil, or_false, not_or] at hletter
    by_cases hcontrol : c.toNat < 32
    · exact Or.inl ⟨hcontrol, by simp [escapedChar, hletter, hcontrol]⟩
    · exact Or.inr ⟨by omega, hletter.1, hletter.2.1, by simp [escapedChar, hletter, hcontrol]⟩

/-- The digits written for a control are read as its code. -/
theorem codeUnit?_hexPair :
    ∀ n < 32, codeUnit? '0' '0' (Nat.digitChar (n / 16)) (Nat.digitChar (n % 16)) = some n := by
  decide

theorem charOfUnit?_toNat (c : Char) : charOfUnit? c.toNat = some c := by
  have hvalid : c.toNat.isValidChar := c.valid
  rw [charOfUnit?, if_pos hvalid, Char.ofNat_toNat]

/-- What is written for a character is read as this character. -/
theorem stringBody_escapedChar (read : List Char) (c : Char) (rest : List Char) :
    stringBody read (escapedChar c ++ rest) = stringBody (c :: read) rest := by
  rcases escapedChar_cases c with ⟨e, hc, he⟩ | ⟨hcontrol, hc⟩ | ⟨hcode, hquote, hslash, hc⟩
  · have hu : e ≠ 'u' := by
      rintro rfl
      cases he
    simp [hc, stringBody, hu, he]
  · simp [hc, stringBody, hexPair, codeUnit?_hexPair c.toNat hcontrol, charOfUnit?_toNat]
  · simp [hc, stringBody, hslash, Nat.not_lt.mpr hcode]

/-- A string is read up to the quote behind it. -/
theorem stringBody_flatMap (read s rest : List Char) :
    stringBody read (s.flatMap escapedChar ++ '"' :: rest) = some (read.reverse ++ s, rest) := by
  induction s generalizing read with
  | nil => simp [stringBody]
  | cons c s ih =>
      rw [List.flatMap_cons, List.append_assoc, stringBody_escapedChar, ih]
      simp

end Strings

section Spaces

variable {spaces : List Char}

theorem skip_append (h : ∀ c ∈ spaces, isSpace c = true) (cs : List Char) :
    skip (spaces ++ cs) = skip cs :=
  List.dropWhile_append_of_pos h

theorem skip_cons {c : Char} (hc : isSpace c = false) (cs : List Char) :
    skip (c :: cs) = c :: cs := by
  rw [skip, List.dropWhile_cons_of_neg (by simp [hc])]

theorem isSpace_of_mem_lineBreak (depth : Nat) : ∀ c ∈ lineBreak depth, isSpace c = true := by
  simp [lineBreak, isSpace]

/-- White space in front of a value makes no difference. -/
theorem value?_append (h : ∀ c ∈ spaces, isSpace c = true) (fuel : Nat) (cs : List Char) :
    value? fuel (spaces ++ cs) = value? fuel cs := by
  cases fuel with
  | zero => rfl
  | succ fuel => rw [value?, value?, skip_append h]

theorem memberAt?_append (h : ∀ c ∈ spaces, isSpace c = true) (fuel : Nat) (cs : List Char) :
    memberAt? fuel (spaces ++ cs) = memberAt? fuel cs := by
  cases fuel with
  | zero => rfl
  | succ fuel => rw [memberAt?, memberAt?, skip_append h]

end Spaces

section Steps

variable {fuel : Nat} {cs after rest : List Char} {v : Json} {vs : List Json}
  {m : JsonMember} {ms : List JsonMember}

theorem value?_array (hne : ∀ r, skip cs ≠ ']' :: r)
    (hv : value? fuel (skip cs) = some (v, after)) (hvs : items? fuel after = some (vs, rest)) :
    value? (fuel + 1) ('[' :: cs) = some (.array (v :: vs), rest) := by
  rw [value?, skip_cons (by decide)]
  simp only [hv, hvs, Option.map_some]

theorem value?_object (hne : ∀ r, skip cs ≠ '\x7d' :: r)
    (hm : memberAt? fuel (skip cs) = some (m, after))
    (hms : members? fuel after = some (ms, rest)) :
    value? (fuel + 1) ('\x7b' :: cs) = some (.object (m :: ms), rest) := by
  rw [value?, skip_cons (by decide)]
  simp only [hm, hms, Option.map_some]

theorem items?_comma (hv : value? fuel cs = some (v, after))
    (hvs : items? fuel after = some (vs, rest)) :
    items? (fuel + 1) (',' :: cs) = some (v :: vs, rest) := by
  rw [items?, skip_cons (by decide)]
  simp [hv, hvs]

theorem members?_comma (hm : memberAt? fuel cs = some (m, after))
    (hms : members? fuel after = some (ms, rest)) :
    members? (fuel + 1) (',' :: cs) = some (m :: ms, rest) := by
  rw [members?, skip_cons (by decide)]
  simp [hm, hms]

/-- The key of a member is read, and then its value behind the colon. -/
theorem memberAt?_stringText (key : String) (hv : value? fuel cs = some (v, rest)) :
    memberAt? (fuel + 1) (stringText key ++ ':' :: cs) = some (⟨key, v⟩, rest) := by
  have htext : stringText key ++ ':' :: cs =
      '"' :: (key.toList.flatMap escapedChar ++ '"' :: ':' :: cs) := by
    simp [stringText]
  rw [memberAt?, htext, skip_cons (by decide)]
  simp [stringBody_flatMap, skip_cons, isSpace, hv]

end Steps

section Texts

variable (depth : Nat) (rest : List Char)

/-- A value that is no number begins with one of a few characters. -/
theorem exists_head {v : Json} (hv : v.isNumberless = true) :
    ∃ c cs, prettyText depth v = c :: cs ∧ c ∈ ['n', 't', 'f', '"', '[', '\x7b'] := by
  cases v with
  | null => exact ⟨_, _, rfl, by decide⟩
  | bool b => cases b <;> exact ⟨_, _, rfl, by decide⟩
  | number n => cases hv
  | string s => exact ⟨_, _, rfl, by decide⟩
  | array items => cases items <;> exact ⟨_, _, rfl, by decide⟩
  | object members =>
      cases members with
      | nil => exact ⟨_, _, rfl, by decide⟩
      | cons m ms =>
          obtain ⟨k, v⟩ := m
          exact ⟨_, _, rfl, by decide⟩

/-- A value is what follows a line break, and it does not begin with a bracket that closes. -/
theorem skip_prettyText {v : Json} (hv : v.isNumberless = true) :
    skip (lineBreak depth ++ (prettyText depth v ++ rest)) = prettyText depth v ++ rest ∧
      ∀ r, prettyText depth v ++ rest ≠ ']' :: r := by
  have hheads : ∀ c ∈ ['n', 't', 'f', '"', '[', '\x7b'], isSpace c = false ∧ c ≠ ']' := by
    simp [isSpace]
  obtain ⟨c, cs, hcs, hc⟩ := exists_head depth hv
  obtain ⟨hspace, hclose⟩ := hheads c hc
  rw [skip_append (isSpace_of_mem_lineBreak depth), hcs, List.cons_append]
  exact ⟨skip_cons hspace _, fun r heq => hclose (List.cons.inj heq).1⟩

theorem prettyText_string_append (s : String) :
    prettyText depth (.string s) ++ rest =
      '"' :: (s.toList.flatMap escapedChar ++ '"' :: rest) := by
  simp [prettyText, scalarText, stringText]

theorem prettyText_array_append (v : Json) (vs : List Json) :
    prettyText depth (.array (v :: vs)) ++ rest =
      '[' :: (lineBreak (depth + 1) ++ (prettyText (depth + 1) v ++
        (prettyItems (depth + 1) vs ++ (lineBreak depth ++ ']' :: rest)))) := by
  simp [prettyText]

theorem prettyText_object_append (k : String) (v : Json) (ms : List JsonMember) :
    prettyText depth (.object (⟨k, v⟩ :: ms)) ++ rest =
      '\x7b' :: (lineBreak (depth + 1) ++ (stringText k ++ ':' :: ([' '] ++
        (prettyText (depth + 1) v ++
          (prettyMembers (depth + 1) ms ++ (lineBreak depth ++ '\x7d' :: rest)))))) := by
  simp [prettyText]

theorem prettyItems_cons_append (v : Json) (vs : List Json) :
    prettyItems depth (v :: vs) ++ rest =
      ',' :: (lineBreak depth ++ (prettyText depth v ++ (prettyItems depth vs ++ rest))) := by
  simp [prettyItems]

theorem prettyMembers_cons_append (k : String) (v : Json) (ms : List JsonMember) :
    prettyMembers depth (⟨k, v⟩ :: ms) ++ rest =
      ',' :: (lineBreak depth ++ (stringText k ++ ':' :: ([' '] ++
        (prettyText depth v ++ (prettyMembers depth ms ++ rest))))) := by
  simp [prettyMembers]

end Texts

mutual

/-- A value is read back from its text when there is more fuel than the text has characters. -/
theorem value?_prettyText : (v : Json) → (depth fuel : Nat) → (rest : List Char) →
    v.isNumberless = true → (prettyText depth v).length < fuel →
    value? fuel (prettyText depth v ++ rest) = some (v, rest)
  | _, _, 0, _, _, hfuel => absurd hfuel (Nat.not_lt_zero _)
  | .null, _, _ + 1, _, _, _ => rfl
  | .bool true, _, _ + 1, _, _, _ => rfl
  | .bool false, _, _ + 1, _, _, _ => rfl
  | .number _, _, _, _, hv, _ => by
      cases hv
  | .string s, depth, fuel + 1, rest, _, _ => by
      rw [prettyText_string_append, value?, skip_cons (by decide)]
      simp [stringBody_flatMap]
  | .array [], _, _ + 1, _, _, _ => rfl
  | .array (v :: vs), depth, fuel + 1, rest, hv, hfuel => by
      simp only [isNumberless, numberlessItems, Bool.and_eq_true] at hv
      simp only [prettyText, List.length_cons, List.length_append] at hfuel
      obtain ⟨hskip, hne⟩ := skip_prettyText (depth + 1)
        (prettyItems (depth + 1) vs ++ (lineBreak depth ++ ']' :: rest)) hv.1
      rw [prettyText_array_append]
      refine value?_array (by rwa [hskip]) ?_
        (items?_prettyItems vs (depth + 1) fuel depth rest hv.2 (by omega))
      rw [hskip]
      exact value?_prettyText v (depth + 1) fuel _ hv.1 (by omega)
  | .object [], _, _ + 1, _, _, _ => rfl
  | .object (⟨k, v⟩ :: ms), depth, fuel + 1, rest, hv, hfuel => by
      simp only [isNumberless, numberlessMembers, Bool.and_eq_true] at hv
      simp only [prettyText, List.length_cons, List.length_append] at hfuel
      have hskip (after : List Char) :
          skip (lineBreak (depth + 1) ++ (stringText k ++ after)) = stringText k ++ after := by
        rw [skip_append (isSpace_of_mem_lineBreak (depth + 1))]
        rfl
      -- the member takes one more step than its value, which its brackets pay for
      obtain ⟨fuel, rfl⟩ : ∃ n, fuel = n + 1 := ⟨fuel - 1, by omega⟩
      rw [prettyText_object_append]
      refine value?_object (fun r => ?_) ?_
        (members?_prettyMembers ms (depth + 1) (fuel + 1) depth rest hv.2 (by omega))
      · rw [hskip]
        simp [stringText]
      · rw [hskip]
        refine memberAt?_stringText k ?_
        rw [value?_append (by simp [isSpace])]
        exact value?_prettyText v (depth + 1) fuel _ hv.1 (by omega)

theorem items?_prettyItems : (vs : List Json) → (depth fuel outer : Nat) → (rest : List Char) →
    numberlessItems vs = true → (prettyItems depth vs).length < fuel →
    items? fuel (prettyItems depth vs ++ (lineBreak outer ++ ']' :: rest)) = some (vs, rest)
  | _, _, 0, _, _, _, hfuel => absurd hfuel (Nat.not_lt_zero _)
  | [], _, fuel + 1, outer, rest, _, _ => by
      rw [prettyItems, List.nil_append, items?, skip_append (isSpace_of_mem_lineBreak outer),
        skip_cons (by decide)]
      rfl
  | v :: vs, depth, fuel + 1, outer, rest, hv, hfuel => by
      simp only [numberlessItems, Bool.and_eq_true] at hv
      simp only [prettyItems, List.length_cons, List.length_append] at hfuel
      rw [prettyItems_cons_append]
      refine items?_comma ?_ (items?_prettyItems vs depth fuel outer rest hv.2 (by omega))
      rw [value?_append (isSpace_of_mem_lineBreak depth)]
      exact value?_prettyText v depth fuel _ hv.1 (by omega)

theorem members?_prettyMembers : (ms : List JsonMember) → (depth fuel outer : Nat) →
    (rest : List Char) → numberlessMembers ms = true → (prettyMembers depth ms).length < fuel →
    members? fuel (prettyMembers depth ms ++ (lineBreak outer ++ '\x7d' :: rest)) = some (ms, rest)
  | _, _, 0, _, _, _, hfuel => absurd hfuel (Nat.not_lt_zero _)
  | [], _, fuel + 1, outer, rest, _, _ => by
      rw [prettyMembers, List.nil_append, members?, skip_append (isSpace_of_mem_lineBreak outer),
        skip_cons (by decide)]
      rfl
  | ⟨k, v⟩ :: ms, depth, fuel + 1, outer, rest, hv, hfuel => by
      simp only [numberlessMembers, Bool.and_eq_true] at hv
      simp only [prettyMembers, List.length_cons, List.length_append] at hfuel
      obtain ⟨fuel, rfl⟩ : ∃ n, fuel = n + 1 := ⟨fuel - 1, by omega⟩
      rw [prettyMembers_cons_append]
      refine members?_comma ?_
        (members?_prettyMembers ms depth (fuel + 1) outer rest hv.2 (by omega))
      rw [memberAt?_append (isSpace_of_mem_lineBreak depth)]
      refine memberAt?_stringText k ?_
      rw [value?_append (by simp [isSpace])]
      exact value?_prettyText v depth fuel _ hv.1 (by omega)

end

/-- A document that was written for a value without numbers stands for this value. -/
theorem parse_pretty {v : Json} (hv : v.isNumberless = true) : parse (pretty v) = some v := by
  have hread := value?_prettyText v 0 (2 * (prettyText 0 v).length + 2) [] hv (by omega)
  rw [List.append_nil] at hread
  simp [parse, pretty, hread, skip]

end StructModel.Json
