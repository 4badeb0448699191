import StructModel.Proofs.Extract.Canonical
import StructModel.Proofs.Extract.Lockstep
import StructModel.Proofs.Text.Quoted

/-!
# Drop warnings

A warning that a field was dropped is known by its text. Names hold no blank, so no other
diagnostic reads like one, and the key can be read back from it. The first drop warning under
`lastWins` therefore tells the error that there is under `error`.
-/

namespace StructModel

/-- The text of the warning on a field whose output key a later one reuses. -/
def dropText (dropped key later : String) : String :=
  "field " ++ dropped ++ " dropped: output key " ++ Text.quoted key ++ " reused by " ++ later

/-- A diagnostic drops a field with a key when it is a warning that says so. -/
def Diagnostic.Drops (d : Diagnostic) (key : String) : Prop :=
  d.severity = .warning ∧
    ∃ dropped later, ' ' ∉ dropped.toList ∧ d.message = dropText dropped key later

/-- The first of some diagnostics that drops a field drops one with the key. -/
def IsFirstDrop (ds : List Diagnostic) (d : Diagnostic) (key : String) : Prop :=
  d.Drops key ∧
    ∃ before after, ds = before ++ d :: after ∧ ∀ e ∈ before, ∀ k, ¬ e.Drops k

section Words

/-- Texts that begin with different characters differ. -/
theorem append_ne_append {a b : String} {c d : Char} {cs ds : List Char} (ha : a.toList = c :: cs)
    (hb : b.toList = d :: ds) (hcd : c ≠ d) (x y : String) : a ++ x ≠ b ++ y := by
  intro h
  have hlist := congrArg String.toList h
  rw [String.toList_append, String.toList_append, ha, hb] at hlist
  exact hcd (List.cons.inj hlist).1

/-- The first word of a text and what comes after it. -/
theorem word_unique {a b x y : String} (ha : ' ' ∉ a.toList) (hb : ' ' ∉ b.toList)
    (h : a ++ (" " ++ x) = b ++ (" " ++ y)) : a = b ∧ x = y := by
  have hlist := congrArg String.toList h
  simp only [String.toList_append] at hlist
  obtain ⟨hword, hrest⟩ := Text.cut_unique ha hb hlist
  exact ⟨String.toList_inj.mp hword, String.toList_inj.mp hrest⟩

theorem dropText_eq (dropped key later : String) :
    dropText dropped key later =
      "field " ++ (dropped ++ (" " ++ ("dropped: output key " ++
        (Text.quoted key ++ (" reused by " ++ later))))) := by
  have hliteral : " dropped: output key " = " " ++ "dropped: output key " := rfl
  rw [dropText, hliteral]
  simp only [String.append_assoc]

theorem dropText_unique {dropped key later dropped' key' later' : String}
    (h : ' ' ∉ dropped.toList) (h' : ' ' ∉ dropped'.toList)
    (heq : dropText dropped key later = dropText dropped' key' later') : key = key' := by
  rw [dropText_eq, dropText_eq, String.append_right_inj] at heq
  have hrest := (word_unique h h' heq).2
  rw [String.append_right_inj] at hrest
  exact Text.quoted_append_inj hrest

/-- A text whose third word is another one is no drop warning. -/
theorem ne_dropText {word rest dropped key later : String} {c : Char} {cs : List Char}
    (hword : ' ' ∉ word.toList) (hdropped : ' ' ∉ dropped.toList)
    (hrest : rest.toList = c :: cs) (hc : c ≠ 'd') (tail : String) :
    "field " ++ (word ++ (" " ++ (rest ++ tail))) ≠ dropText dropped key later := by
  intro h
  rw [dropText_eq, String.append_right_inj] at h
  exact append_ne_append hrest rfl hc _ _ (word_unique hword hdropped h).2

end Words

namespace Diagnostic

theorem Drops.key_unique {d : Diagnostic} {key key' : String} (h : d.Drops key)
    (h' : d.Drops key') : key = key' := by
  obtain ⟨_, dropped, later, hdropped, hmessage⟩ := h
  obtain ⟨_, dropped', later', hdropped', hmessage'⟩ := h'
  exact dropText_unique hdropped hdropped' (hmessage.symm.trans hmessage')

/-- A diagnostic whose text begins with a name and a word does not drop a field. -/
theorem not_drops_of_message {d : Diagnostic} (name word tail : String) {c : Char}
    {cs : List Char} (hmessage : d.message = name ++ (" " ++ (word ++ (" " ++ tail))))
    (hname : ' ' ∉ name.toList) (hword : ' ' ∉ word.toList) (htail : tail.toList = c :: cs)
    (hc : c ≠ 'd') (key : String) : ¬ d.Drops key := by
  rintro ⟨_, dropped, later, hdropped, h⟩
  have hfield : "field " = "field" ++ " " := rfl
  rw [hmessage, dropText_eq, hfield, String.append_assoc] at h
  have hrest := (word_unique hname (by decide) h).2
  have htail' := (word_unique hword hdropped hrest).2
  rw [← String.append_empty (s := tail)] at htail'
  exact append_ne_append htail rfl hc _ _ htail'

end Diagnostic

namespace IsFirstDrop

variable {ds : List Diagnostic} {d e : Diagnostic} {key key' : String}

theorem mem (h : IsFirstDrop ds d key) : d ∈ ds := by
  obtain ⟨_, before, after, rfl, _⟩ := h
  exact List.mem_append_right before List.mem_cons_self

/-- What drops nothing may stand before the first drop. -/
theorem append_left (h : IsFirstDrop ds d key) {others : List Diagnostic}
    (hothers : ∀ e ∈ others, ∀ k, ¬ e.Drops k) : IsFirstDrop (others ++ ds) d key := by
  obtain ⟨hdrops, before, after, rfl, hbefore⟩ := h
  refine ⟨hdrops, others ++ before, after, (List.append_assoc _ _ _).symm, ?_⟩
  intro e he
  exact (List.mem_append.mp he).elim (hothers e) (hbefore e)

theorem append_right (h : IsFirstDrop ds d key) (others : List Diagnostic) :
    IsFirstDrop (ds ++ others) d key := by
  obtain ⟨hdrops, before, after, rfl, hbefore⟩ := h
  exact ⟨hdrops, before, after ++ others, List.append_assoc _ _ _, hbefore⟩

theorem unique (hd : IsFirstDrop ds d key) (he : IsFirstDrop ds e key') :
    d = e ∧ key = key' := by
  obtain ⟨hdrops, before, after, rfl, hbefore⟩ := hd
  obtain ⟨hdrops', before', after', heq, hbefore'⟩ := he
  have hde : d = e := by
    induction before generalizing before' with
    | nil =>
        cases before' with
        | nil => exact (List.cons.inj heq).1
        | cons b bs =>
            obtain ⟨rfl, -⟩ := List.cons.inj heq
            exact absurd hdrops (hbefore' d List.mem_cons_self key)
    | cons b bs ih =>
        cases before' with
        | nil =>
            obtain ⟨rfl, -⟩ := List.cons.inj heq
            exact absurd hdrops' (hbefore b List.mem_cons_self key')
        | cons b' bs' =>
            exact ih (fun c hc => hbefore c (List.mem_cons_of_mem b hc)) bs'
              (List.cons.inj heq).2 (fun c hc => hbefore' c (List.mem_cons_of_mem b' hc))
  subst hde
  exact ⟨rfl, hdrops.key_unique hdrops'⟩

end IsFirstDrop

namespace Extract

open StructModel.Go Extractor

theorem notMem_dotted {c : Char} {parts : List String} (hdot : c ≠ '.')
    (h : ∀ p ∈ parts, c ∉ p.toList) : c ∉ (dotted parts).toList := by
  unfold dotted
  induction parts with
  | nil => simp
  | cons p ps ih =>
      have hp := h p List.mem_cons_self
      have hps := ih fun q hq => h q (List.mem_cons_of_mem p hq)
      cases ps with
      | nil => simpa using hp
      | cons q qs =>
          rw [String.intercalate_cons_cons]
          simp only [String.toList_append, List.mem_append]
          rintro ((hc | hc) | hc)
          · exact hp hc
          · exact hdot (List.mem_singleton.mp hc)
          · exact hps hc

namespace Note

variable {n : Note}

theorem IsWellNamed.fieldPath (h : n.IsWellNamed) {leaf : String}
    (hleaf : isIdentifier leaf = true) : ' ' ∉ (n.fieldPath leaf).toList := by
  refine notMem_dotted (by decide) ?_
  intro p hp
  rcases List.mem_append.mp hp with hp | hp
  · exact blank_notMem_of_isIdentifier (h.1 p hp)
  · rw [List.mem_singleton.mp hp]
    exact blank_notMem_of_isIdentifier hleaf

/-- The diagnostic of a note drops a field exactly when the note is on a superseding. -/
theorem drops_diagnostic_iff (h : n.IsWellNamed) (declaration key : String) :
    (n.diagnostic declaration).Drops key ↔ ∃ earlier, n.cause = .superseding earlier key := by
  obtain ⟨path, leaf, cause, line⟩ := n
  constructor
  · rintro ⟨hseverity, dropped, later, hdropped, hmessage⟩
    cases cause with
    | excluded => cases hseverity
    | unsupported text =>
        have hliteral : " skipped: unsupported type `" = " " ++ "skipped: unsupported type `" := rfl
        simp only [diagnostic, message, hliteral, String.append_assoc] at hmessage
        exact absurd hmessage (ne_dropText (h.fieldPath h.2) hdropped rfl (by decide) _)
    | unnamed text =>
        simp only [diagnostic, message, String.append_assoc, dropText] at hmessage
        exact absurd hmessage (append_ne_append rfl rfl (by decide) _ _)
    | superseding earlier key' =>
        refine ⟨earlier, ?_⟩
        rw [dropText_unique (h.fieldPath h.2.2) hdropped hmessage]
  · rintro ⟨earlier, rfl⟩
    exact ⟨rfl, _, _, h.fieldPath h.2.2, rfl⟩

end Note

end Extract

end StructModel
