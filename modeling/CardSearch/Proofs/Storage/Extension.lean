import CardSearch.Proofs.Storage.Naming

/-
  Paths with another extension.

  1. **Stems (`name_cases`)** — a name is a stem, or a stem, a dot and an extension.
  2. **The crux (`LastName.withoutExtension`)** — the extension is cut off at the end of the text,
     where fillers may stand, so the cut need not take all of it; but what is left of the last name
     has its stem.
  3. **Siblings (`withExtension_cases`, `LastName.names_sibling`)** — so with another extension a path
     leads to the same folder and to a name of the same stem there.
-/

namespace CardSearch.Path

open Directory (names endsInDots)

/-! ## Stems -/

/-- The text up to the last dot, when none is behind it. -/
theorem upToDot_append {extension : List Char} (h : '.' ∉ extension) (base : List Char) :
    ((base ++ '.' :: extension).reverse.dropWhile (· != '.')).reverse = base ++ ['.'] := by
  have hreverse : ∀ c ∈ extension.reverse, (c != '.') = true := by
    intro c hc
    rw [bne_iff_ne]
    rintro rfl
    exact h (List.mem_reverse.mp hc)
  rw [List.reverse_append, List.reverse_cons, List.append_assoc,
    List.dropWhile_append_of_pos hreverse]
  exact List.reverse_cons.trans (congrArg (· ++ ['.']) (List.reverse_reverse base))

/-- The stem ends before the last dot, unless that is the first character. -/
theorem stem_append {base extension : List Char} (hbase : base ≠ []) (h : '.' ∉ extension) :
    stem (base ++ '.' :: extension) = base := by
  rw [stem, upToDot_append h]
  split
  · rename_i hnil
    exact absurd hnil (by simp)
  · rename_i hone
    exact absurd (List.append_eq_singleton_iff.mp hone) (by simp [hbase])
  · exact List.dropLast_concat

theorem extension_of_stem {base rest : List Char} (h : stem (base ++ '.' :: rest) = base) :
    extension (base ++ '.' :: rest) = rest := by
  rw [extension, h, List.drop_left]
  rfl

/-- A name has no extension, or it is a stem, a dot and the extension.  A dot at the front starts
    no extension, so the stem is never empty. -/
theorem name_cases (name : List Char) :
    (stem name = name ∧ extension name = []) ∨ ∃ base rest, base ≠ [] ∧ '.' ∉ rest ∧
      name = base ++ '.' :: rest ∧ stem name = base ∧ extension name = rest := by
  have hwhole : stem name = name → extension name = [] := by
    intro hstem
    rw [extension, hstem, List.drop_length]
    rfl
  by_cases hdot : '.' ∈ name
  · -- the last dot is the first one from the end
    obtain ⟨after, before, hsplit, hafter⟩ :=
      List.eq_append_cons_of_mem (List.mem_reverse.mpr hdot)
    have hname : name = before.reverse ++ '.' :: after.reverse := by
      rw [← List.reverse_reverse name, hsplit, List.reverse_append, List.reverse_cons,
        List.append_assoc]
      rfl
    have hnot : '.' ∉ after.reverse := fun h => hafter (List.mem_reverse.mp h)
    rw [hname]
    cases before with
    | nil =>
      -- a dot in front is part of the stem
      refine Or.inl (⟨?_, ?_⟩)
      · rw [stem, upToDot_append hnot]
        rfl
      · exact hname ▸ hwhole (by rw [hname, stem, upToDot_append hnot]; rfl)
    | cons c before =>
      have hbase : (c :: before).reverse ≠ [] := by simp
      have hstem := stem_append hbase hnot
      exact Or.inr ⟨_, _, hbase, hnot, rfl, hstem, extension_of_stem hstem⟩
  · have hnone : (name.reverse.dropWhile (· != '.')).reverse = [] := by
      rw [List.reverse_eq_nil_iff, List.dropWhile_eq_nil_iff]
      intro c hc
      rw [bne_iff_ne]
      rintro rfl
      exact hdot (List.mem_reverse.mp hc)
    have hstem : stem name = name := by rw [stem, hnone]
    exact Or.inl ⟨hstem, hwhole hstem⟩

/-! ## The cut at the end -/

/-- The text up to the last name does not depend on the name: the parts in front with a slash
    behind each. -/
theorem exists_lead (front : List (List Char)) :
    ∃ lead, ∀ name, join (front ++ [name]) = lead ++ name := by
  cases front with
  | nil => exact ⟨[], fun name => join_singleton name⟩
  | cons first front =>
    refine ⟨join (first :: front) ++ ['/'], fun name => ?_⟩
    rw [join_append (List.cons_ne_nil first front) (List.cons_ne_nil name []), join_singleton,
      List.append_assoc]
    rfl

/-- A tail of fillers that is cut short is one still: a segment that is cut loses characters at
    its end, and of a dot nothing is left. -/
theorem isFiller_of_append {front rest : List Char}
    (h : ∀ filler ∈ segments (front ++ rest), isFiller filler = true) :
    ∀ filler ∈ segments front, isFiller filler = true := by
  obtain ⟨before, last, hlast⟩ :=
    (List.eq_nil_or_concat' (segments front)).resolve_left (segments_ne_nil front)
  obtain ⟨first, more, hmore⟩ := List.exists_cons_of_ne_nil (segments_ne_nil rest)
  rw [segments_append hlast hmore] at h
  rw [hlast]
  intro filler hfiller
  rcases List.mem_append.mp hfiller with hfiller | hfiller
  · exact h filler (List.mem_append_left _ hfiller)
  · obtain rfl := List.mem_singleton.mp hfiller
    have hwhole := h (filler ++ first) (List.mem_append_right _ List.mem_cons_self)
    simp only [isFiller, Bool.or_eq_true, beq_iff_eq, List.append_eq_nil_iff,
      List.append_eq_singleton_iff] at hwhole ⊢
    rcases hwhole with ⟨hnil, -⟩ | ⟨hnil, -⟩ | ⟨hdot, -⟩
    · exact Or.inl hnil
    · exact Or.inl hnil
    · exact Or.inr hdot

/-- A tail that is cut by the length of an extension before it: as much of both is left as the tail
    is long. -/
theorem take_extension (lead base rest tail : List Char) :
    (lead ++ (base ++ '.' :: rest) ++ tail).take
        ((lead ++ (base ++ '.' :: rest) ++ tail).length - rest.length) =
      lead ++ (base ++ '.' :: rest.take tail.length) ++ tail.take (tail.length - rest.length) := by
  have hlength : (lead ++ (base ++ '.' :: rest) ++ tail).length - rest.length =
      (lead ++ (base ++ ['.'])).length + tail.length := by
    simp only [List.length_append, List.length_cons, List.length_nil]
    omega
  have hsplit : lead ++ (base ++ '.' :: rest) ++ tail =
      (lead ++ (base ++ ['.'])) ++ (rest ++ tail) := by
    simp only [List.append_assoc, List.cons_append, List.nil_append]
  rw [hlength, hsplit, List.take_length_add_append, List.take_append]
  simp only [List.append_assoc, List.cons_append, List.nil_append]

/-- A text that ends with a name, or with a name and a tail of fillers, has this as its last
    name. -/
theorem lastName_join {front : List (List Char)} {name tail : List Char}
    (hslash : ∀ part ∈ front ++ [name], '/' ∉ part) (hname : isFiller name = false)
    (htail : tail = [] ∨ ∃ rest, tail = '/' :: rest ∧
      ∀ filler ∈ segments rest, isFiller filler = true) :
    ∃ fillers, LastName (join (front ++ [name]) ++ tail) front name fillers := by
  have hsegments := segments_join (by simp) hslash
  rcases htail with rfl | ⟨rest, rfl, hfillers⟩
  · refine ⟨[], ?_, hname, fun filler hfiller => absurd hfiller List.not_mem_nil⟩
    rw [List.append_nil, hsegments]
  · refine ⟨segments rest, ?_, hname, hfillers⟩
    rw [segments_append_slash, hsegments, List.append_assoc, List.singleton_append]

/-- **What the cut at the end of the text leaves of the last name has the same stem.** The
    extension is cut off by its length, from the fillers as well, so a part of it can stay. -/
theorem LastName.withoutExtension {path name : List Char} {front fillers : List (List Char)}
    (h : LastName path front name fillers) (hname : name ≠ ['.', '.']) :
    ∃ left fillers, LastName (withoutExtension path) front left fillers ∧
      stem left = stem name := by
  rw [Path.withoutExtension, h.fileName?_eq, if_neg hname]
  simp only
  rcases name_cases name with ⟨hstem, hext⟩ | ⟨base, rest, hbase, hrest, rfl, hstem, hext⟩
  · refine ⟨name, fillers, ?_, rfl⟩
    rw [hext, List.length_nil, Nat.sub_zero, List.take_length]
    exact h
  obtain ⟨tail, hpath, htail⟩ := h.exists_tail
  obtain ⟨lead, hlead⟩ := exists_lead front
  -- the cut takes as many characters as the extension has: of the tail first, and then of the name
  have hcut : path.take (path.length - (extension (base ++ '.' :: rest)).length) =
      join (front ++ [base ++ '.' :: rest.take tail.length]) ++
        tail.take (tail.length - rest.length) := by
    rw [hext, hpath, hlead, hlead, take_extension]
  have hnot : '.' ∉ rest.take tail.length := fun hmem => hrest (List.mem_of_mem_take hmem)
  have hslash : ∀ part ∈ front ++ [base ++ '.' :: rest.take tail.length], '/' ∉ part := by
    intro part hpart hmem
    rcases List.mem_append.mp hpart with hpart | hpart
    · exact h.not_mem part (List.mem_append_left _ hpart) hmem
    · obtain rfl := List.mem_singleton.mp hpart
      refine h.not_mem _ (List.mem_append_right _ List.mem_cons_self) ?_
      exact List.IsInfix.subset ⟨[], rest.drop tail.length, by simp⟩ hmem
  have hfiller : isFiller (base ++ '.' :: rest.take tail.length) = false := by
    rw [isFiller, Bool.or_eq_false_iff]
    refine ⟨beq_eq_false_iff_ne.mpr (by simp), beq_eq_false_iff_ne.mpr fun hdot => ?_⟩
    exact absurd (List.append_eq_singleton_iff.mp hdot) (by simp [hbase])
  -- what is left of the tail is nothing, or a slash and fillers
  have hshort : tail.take (tail.length - rest.length) = [] ∨
      ∃ text, tail.take (tail.length - rest.length) = '/' :: text ∧
        ∀ filler ∈ segments text, isFiller filler = true := by
    rcases htail with rfl | ⟨text, rfl, htext⟩
    · exact Or.inl List.take_nil
    cases ('/' :: text).length - rest.length with
    | zero => exact Or.inl rfl
    | succ count =>
      have hfillers := h.isFiller_rest
      rw [← htext, ← List.take_append_drop count text] at hfillers
      exact Or.inr ⟨_, List.take_succ_cons, isFiller_of_append hfillers⟩
  obtain ⟨others, hleft⟩ := lastName_join hslash hfiller hshort
  rw [hcut]
  exact ⟨_, others, hleft, (stem_append hbase hnot).trans hstem.symm⟩

/-- **With another extension a path leads to a name beside its last one**, of the same stem, unless it
    then ends in dots. -/
theorem withExtension_cases (extension path : List Char) :
    endsInDots (withExtension extension path) = true ∨
      ∃ front name fillers, LastName path front name fillers ∧ name ≠ ['.', '.'] ∧
        withExtension extension path = join (front ++ [stem name ++ '.' :: extension]) := by
  cases hname : fileName? path with
  | none =>
    have hsame : withExtension extension path = path := by
      rw [withExtension, Path.withoutExtension, hname, addExtension, hname]
    rw [hsame]
    exact Or.inl (endsInDots_of_fileName? hname)
  | some name =>
    obtain ⟨front, fillers, hlast, hdots⟩ := exists_lastName hname
    obtain ⟨left, others, hleft, hstem⟩ := hlast.withoutExtension hdots
    rw [withExtension, addExtension, hleft.fileName?_eq]
    by_cases hleftDots : left = ['.', '.']
    · rw [if_pos hleftDots]
      subst hleftDots
      exact Or.inl hleft.endsInDots
    · rw [if_neg hleftDots]
      refine Or.inr ⟨front, name, fillers, hlast, hdots, ?_⟩
      simp only
      rw [hleft.settled_segments, List.dropLast_concat, hstem]

theorem stem_isPrefix (name : List Char) : stem name <+: name := by
  rcases name_cases name with ⟨hstem, -⟩ | ⟨base, rest, -, -, hname, hstem, -⟩
  · exact ⟨[], by rw [hstem, List.append_nil]⟩
  · rw [hstem]
    exact ⟨_, hname.symm⟩

section Siblings

variable {path name other : List Char} {front fillers : List (List Char)}
  (h : LastName path front name fillers) (hslash : '/' ∉ other) (hother : other ≠ [])

include h hslash hother

/-- A path to a name beside the last one goes through the same folders and ends with that name,
    with no dots behind it. -/
theorem LastName.names_sibling :
    names (join (front ++ [other])) = front.filter solid ++ [other] := by
  have hparts : ∀ part ∈ front ++ [other], '/' ∉ part := by
    intro part hpart
    rcases List.mem_append.mp hpart with hpart | hpart
    · exact h.not_mem part (List.mem_append_left _ hpart)
    · exact List.mem_singleton.mp hpart ▸ hslash
  rw [Path.names_eq, segments_join (by simp) hparts, List.filter_append,
    List.filter_cons_of_pos (by simpa using hother), List.filter_nil]

/-- It starts where the path starts, also when the parts in front are the root alone. -/
theorem LastName.isAbsolute_sibling : isAbsolute (join (front ++ [other])) = isAbsolute path := by
  obtain ⟨tail, hpath, -⟩ := h.exists_tail
  obtain ⟨lead, hlead⟩ := exists_lead front
  have hname : '/' ∉ name := h.not_mem name (List.mem_append_right _ List.mem_cons_self)
  have hsolid : name ≠ [] := by
    rintro rfl
    exact absurd h.isFiller_name (by decide)
  rw [hpath, hlead, hlead, isAbsolute, isAbsolute]
  cases lead with
  | nil =>
    obtain ⟨c, name, rfl⟩ := List.exists_cons_of_ne_nil hsolid
    obtain ⟨d, other, rfl⟩ := List.exists_cons_of_ne_nil hother
    have hc : c ≠ '/' := fun hc => hname (hc ▸ List.mem_cons_self)
    have hd : d ≠ '/' := fun hd => hslash (hd ▸ List.mem_cons_self)
    simp [hc, hd]
  | cons c lead => rfl

end Siblings

end CardSearch.Path
