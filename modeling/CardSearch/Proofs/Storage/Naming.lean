import CardSearch.Storage.Directory
import Mathlib.Data.List.DropRight

/-
  Names in paths, and what stands above a path.

  1. **Segments (`segments_append_slash`, `join_segments`)** — cutting at slashes and joining again.
  2. **Fillers (`settled_append`)** — a path ends with fillers, which stand for nothing, and before
     them stands its last name, if it has one.
  3. **The crux (`above_ofSegments`)** — the first segments of a path are the beginning of its text
     and give the first of its names, also where the root or fillers stand between.
  4. **Parents (`above_of_mem_ancestors`)** — so all folders on the way to a parent are above the path.
-/

namespace CardSearch.Path

/-! ## Segments -/

theorem segments_nil : segments [] = [[]] := rfl

theorem segments_slash (path : List Char) : segments ('/' :: path) = [] :: segments path := rfl

/-- A character that is no slash goes to the segment that follows it. -/
theorem segments_cons {c : Char} (hc : c ≠ '/') {path part : List Char} {parts : List (List Char)}
    (h : segments path = part :: parts) : segments (c :: path) = (c :: part) :: parts := by
  have hslash : (c == '/') = false := beq_eq_false_iff_ne.mpr hc
  rw [segments, Text.splitBy, hslash, if_neg Bool.false_ne_true]
  rw [segments] at h
  rw [h]

theorem segments_ne_nil (path : List Char) : segments path ≠ [] := Text.splitBy_ne_nil _ path

theorem segments_eq_splitOn (path : List Char) : segments path = path.splitOn '/' :=
  Text.splitBy_eq_splitOn '/' path

/-- A slash separates the segments before it from those behind it, whatever the two texts are. -/
theorem segments_append_slash (front path : List Char) :
    segments (front ++ '/' :: path) = segments front ++ segments path := by
  simp only [segments_eq_splitOn]
  exact List.splitOn_append_cons_self front path

/-- No slash is left in a segment.  By induction on the text, for the first segment and the rest
    alike. -/
theorem not_mem_of_mem_segments {path part : List Char} (h : part ∈ segments path) :
    '/' ∉ part := by
  induction path generalizing part with
  | nil =>
    obtain rfl := List.mem_singleton.mp h
    exact List.not_mem_nil
  | cons c path ih =>
    by_cases hc : c = '/'
    · subst hc
      rcases List.mem_cons.mp h with rfl | h
      · exact List.not_mem_nil
      · exact ih h
    · obtain ⟨first, parts, hparts⟩ := List.exists_cons_of_ne_nil (segments_ne_nil path)
      rw [segments_cons hc hparts] at h
      rw [hparts] at ih
      rcases List.mem_cons.mp h with rfl | h
      · intro hmem
        rcases List.mem_cons.mp hmem with hslash | hmem
        · exact hc hslash.symm
        · exact ih List.mem_cons_self hmem
      · exact ih (List.mem_cons_of_mem _ h)

/-- The text of segments. -/
abbrev join (parts : List (List Char)) : List Char := Text.join ['/'] parts

theorem join_singleton (part : List Char) : join [part] = part := List.intercalate_singleton

theorem join_cons {parts : List (List Char)} (h : parts ≠ []) (part : List Char) :
    join (part :: parts) = part ++ '/' :: join parts := by
  have hjoin : join (part :: parts) = part ++ ['/'] ++ join parts :=
    List.intercalate_cons_of_ne_nil h
  rw [hjoin, List.append_assoc, List.singleton_append]

/-- Joined parts are separated by a slash as well.  By induction on the parts in front, of which
    the last meets the first one behind. -/
theorem join_append {front parts : List (List Char)} (hfront : front ≠ []) (h : parts ≠ []) :
    join (front ++ parts) = join front ++ '/' :: join parts := by
  induction front with
  | nil => exact absurd rfl hfront
  | cons part front ih =>
    cases front with
    | nil => rw [List.singleton_append, join_cons h, join_singleton]
    | cons next front =>
      have hrest : next :: front ≠ [] := List.cons_ne_nil next front
      have hall : next :: front ++ parts ≠ [] := List.append_ne_nil_of_left_ne_nil hrest parts
      rw [List.cons_append, join_cons hall, ih hrest, join_cons hrest, List.append_assoc,
        List.cons_append]

/-- **Cutting undoes joining**, as long as no segment has a slash of its own. -/
theorem segments_join {parts : List (List Char)} (hparts : parts ≠ [])
    (h : ∀ part ∈ parts, '/' ∉ part) : segments (join parts) = parts := by
  rw [segments_eq_splitOn]
  exact List.splitOn_intercalate '/' h hparts

/-- **Joining undoes cutting**: no character of a path is lost in its segments. -/
theorem join_segments (path : List Char) : join (segments path) = path := by
  rw [segments_eq_splitOn]
  exact List.intercalate_splitOn '/'

/-- Of two texts in a row, the last segment of the first goes on in the second.  By induction on
    the first text. -/
theorem segments_append {front rest last first : List Char} {parts more : List (List Char)}
    (hfront : segments front = parts ++ [last]) (hrest : segments rest = first :: more) :
    segments (front ++ rest) = parts ++ (last ++ first) :: more := by
  induction front generalizing parts last with
  | nil =>
    have hwhole : [] ++ [[]] = parts ++ [last] := hfront
    obtain ⟨rfl, hlast⟩ := List.append_inj' hwhole rfl
    obtain rfl := List.singleton_inj.mp hlast
    exact hrest
  | cons c front ih =>
    obtain ⟨before, final, hfinal⟩ :=
      (List.eq_nil_or_concat' (segments front)).resolve_left (segments_ne_nil front)
    have hsegments := ih hfinal
    by_cases hc : c = '/'
    · subst hc
      rw [segments_slash, hfinal, ← List.cons_append] at hfront
      obtain ⟨rfl, hlast⟩ := List.append_inj' hfront rfl
      obtain rfl := List.singleton_inj.mp hlast
      rw [List.cons_append, segments_slash, hsegments, List.cons_append]
    · -- another character goes to the first segment, which is the last one too if there is no other
      cases before with
      | nil =>
        have hwhole : [] ++ [c :: final] = parts ++ [last] :=
          (segments_cons hc hfinal).symm.trans hfront
        obtain ⟨rfl, hlast⟩ := List.append_inj' hwhole rfl
        obtain rfl := List.singleton_inj.mp hlast
        exact segments_cons hc hsegments
      | cons part before =>
        have hwhole : (c :: part) :: before ++ [final] = parts ++ [last] :=
          (segments_cons hc hfinal).symm.trans hfront
        obtain ⟨rfl, hlast⟩ := List.append_inj' hwhole rfl
        obtain rfl := List.singleton_inj.mp hlast
        exact segments_cons hc hsegments

/-! ## Last names -/

/-- A path that is cut into what stands before its last name, the name, and fillers. -/
structure LastName (path : List Char) (front : List (List Char)) (name : List Char)
    (fillers : List (List Char)) : Prop where
  segments_eq : segments path = front ++ name :: fillers
  isFiller_name : isFiller name = false
  isFiller_rest : ∀ filler ∈ fillers, isFiller filler = true

theorem settled_ne_nil {parts : List (List Char)} (h : parts ≠ []) : settled parts ≠ [] := by
  obtain ⟨first, rest, rfl⟩ := List.exists_cons_of_ne_nil h
  exact List.cons_ne_nil _ _

theorem settled_append {parts : List (List Char)} (h : parts ≠ []) :
    ∃ fillers, parts = settled parts ++ fillers ∧ ∀ filler ∈ fillers, isFiller filler = true := by
  obtain ⟨first, rest, rfl⟩ := List.exists_cons_of_ne_nil h
  refine ⟨rest.rtakeWhile isFiller, ?_, fun filler hfiller => List.mem_rtakeWhile_imp hfiller⟩
  exact congrArg (first :: ·) List.rdropWhile_append_rtakeWhile.symm

/-- The fillers are taken up to a name that is none; the first segment stops them also if it is
    one. -/
theorem settled_eq {front fillers : List (List Char)} {name : List Char}
    (hname : front = [] ∨ isFiller name = false)
    (hfillers : ∀ filler ∈ fillers, isFiller filler = true) :
    settled (front ++ name :: fillers) = front ++ [name] := by
  have hreverse : ∀ filler ∈ fillers.reverse, isFiller filler = true :=
    fun filler hfiller => hfillers filler (List.mem_reverse.mp hfiller)
  cases front with
  | nil =>
    rw [List.nil_append, settled, List.dropWhile_eq_nil_iff.mpr hreverse]
    rfl
  | cons first front =>
    have hname := hname.resolve_left (List.cons_ne_nil first front)
    rw [List.cons_append, settled, List.reverse_append, List.reverse_cons, List.append_assoc,
      List.dropWhile_append_of_pos hreverse, List.singleton_append,
      List.dropWhile_cons_of_neg (by simp [hname]), List.reverse_cons, List.reverse_reverse]
    rfl

namespace LastName

variable {path name : List Char} {front fillers : List (List Char)}

theorem settled_segments (h : LastName path front name fillers) :
    settled (segments path) = front ++ [name] := by
  rw [h.segments_eq]
  exact settled_eq (Or.inr h.isFiller_name) h.isFiller_rest

/-- The file name is the last name, unless that stands for the parent. -/
theorem fileName?_eq (h : LastName path front name fillers) :
    fileName? path = if name = ['.', '.'] then none else some name := by
  rw [fileName?, h.settled_segments, List.getLast?_concat, Option.filter_some, h.isFiller_name]
  by_cases hdots : name = ['.', '.']
  · subst hdots
    rfl
  · simp [hdots]

/-- The parts of a path have no slash, for they are segments. -/
theorem not_mem (h : LastName path front name fillers) : ∀ part ∈ front ++ [name], '/' ∉ part := by
  intro part hpart
  refine @not_mem_of_mem_segments path part ?_
  rw [h.segments_eq]
  rcases List.mem_append.mp hpart with hpart | hpart
  · exact List.mem_append_left _ hpart
  · obtain rfl := List.mem_singleton.mp hpart
    exact List.mem_append_right _ List.mem_cons_self

/-- The path is the text up to its last name and a tail: nothing, or a slash and the fillers. -/
theorem exists_tail (h : LastName path front name fillers) :
    ∃ tail, path = join (front ++ [name]) ++ tail ∧
      (tail = [] ∨ ∃ rest, tail = '/' :: rest ∧ segments rest = fillers) := by
  have hpath := join_segments path
  rw [h.segments_eq, List.append_cons] at hpath
  cases fillers with
  | nil => exact ⟨[], by rw [← hpath, List.append_nil, List.append_nil], Or.inl rfl⟩
  | cons filler fillers =>
    rw [join_append (by simp) (by simp)] at hpath
    refine ⟨_, hpath.symm, Or.inr ⟨_, rfl, segments_join (by simp) fun part hpart => ?_⟩⟩
    refine @not_mem_of_mem_segments path part ?_
    rw [h.segments_eq]
    exact List.mem_append_right _ (List.mem_cons_of_mem _ hpart)

end LastName

/-- **A path that has a file name has a last name**, with what stands before it and the fillers
    behind it. -/
theorem exists_lastName {path name : List Char} (h : fileName? path = some name) :
    ∃ front fillers, LastName path front name fillers ∧ name ≠ ['.', '.'] := by
  obtain ⟨hlast, hname⟩ := Option.filter_eq_some_iff.mp h
  obtain ⟨front, hfront⟩ := List.getLast?_eq_some_iff.mp hlast
  obtain ⟨fillers, hsegments, hfillers⟩ := settled_append (segments_ne_nil path)
  rw [hfront, List.append_assoc, List.singleton_append] at hsegments
  simp only [Bool.and_eq_true, Bool.not_eq_true', bne_iff_ne] at hname
  exact ⟨front, fillers, ⟨hsegments, hname.1, hfillers⟩, hname.2⟩

/-! ## Names of paths -/

open Directory (names endsInDots ancestors)

/-- A segment that is no text stands for nothing. -/
abbrev solid (part : List Char) : Bool := !part.isEmpty

/-- The names of a path are its segments that are not empty: a doubled slash stands for nothing. -/
theorem names_eq (path : List Char) : names path = (segments path).filter solid := rfl

/-- Of the fillers only the dot is a name, and it stays in the folder. -/
theorem eq_dot_of_filler {filler : List Char} (h : isFiller filler = true)
    (hsolid : solid filler = true) : filler = ['.'] := by
  simp only [isFiller, Bool.or_eq_true, beq_iff_eq] at h
  rcases h with rfl | rfl
  · cases hsolid
  · rfl

/-- A last name is not empty, as the empty segment is a filler. -/
theorem solid_of_not_isFiller {name : List Char} (h : isFiller name = false) :
    solid name = true := by
  cases name with
  | nil => cases h
  | cons c name => rfl

/-- The names of a path: those before the last one, the last one, and the dots behind it. -/
theorem LastName.names_eq {path name : List Char} {front fillers : List (List Char)}
    (h : LastName path front name fillers) :
    names path = front.filter solid ++ name :: fillers.filter solid := by
  rw [Path.names_eq, h.segments_eq, List.filter_append,
    List.filter_cons_of_pos (solid_of_not_isFiller h.isFiller_name)]

theorem LastName.eq_dot {path name : List Char} {front fillers : List (List Char)}
    (h : LastName path front name fillers) : ∀ dot ∈ fillers.filter solid, dot = ['.'] := by
  intro dot hdot
  obtain ⟨hmem, hsolid⟩ := List.mem_filter.mp hdot
  exact eq_dot_of_filler (h.isFiller_rest dot hmem) hsolid

/-- A path whose last name stands for a parent ends in dots, whatever fillers follow: its last
    two characters that are no slash are dots. -/
theorem LastName.endsInDots {path : List Char} {front fillers : List (List Char)}
    (h : LastName path front ['.', '.'] fillers) : endsInDots path = true := by
  rw [Directory.endsInDots, h.names_eq]
  cases hdots : fillers.filter solid using List.reverseRecOn with
  | nil =>
    rw [List.getLast?_concat]
    rfl
  | append_singleton dots dot =>
    rw [← List.cons_append, ← List.append_assoc, List.getLast?_concat]
    rw [h.eq_dot dot (hdots ▸ List.mem_concat_self)]
    rfl

/-- A path without a file name is made of fillers or ends with a step to the parent, and both end
    in dots. -/
theorem endsInDots_of_fileName? {path : List Char} (h : fileName? path = none) :
    endsInDots path = true := by
  rw [Directory.endsInDots]
  cases hlast : (names path).getLast? with
  | none => rfl
  | some name =>
    obtain ⟨before, hbefore⟩ := List.getLast?_eq_some_iff.mp hlast
    obtain ⟨front, back, hsegments, -, hback⟩ := List.filter_eq_append_iff.mp hbefore
    obtain ⟨empty, fillers, rfl, -, hname, hfillers⟩ := List.filter_eq_cons_iff.mp hback
    -- otherwise the last name is neither a dot nor two, and it would be the file name
    by_contra hdots
    simp only [Bool.or_eq_true, beq_iff_eq, not_or] at hdots
    have hnot : isFiller name = false := by
      rw [isFiller, Bool.or_eq_false_iff]
      refine ⟨beq_eq_false_iff_ne.mpr ?_, beq_eq_false_iff_ne.mpr hdots.1⟩
      rintro rfl
      cases hname
    have hrest : ∀ filler ∈ fillers, isFiller filler = true := by
      intro filler hfiller
      have hempty := List.filter_eq_nil_iff.mp hfillers filler hfiller
      rw [isFiller, Bool.or_eq_true, beq_iff_eq]
      exact Or.inl (by simpa using hempty)
    have hcut : LastName path (front ++ empty) name fillers :=
      ⟨by rw [hsegments, List.append_assoc], hnot, hrest⟩
    rw [hcut.fileName?_eq, if_neg hdots.2] at h
    cases h

/-! ## Parents -/

/-- A path above another: it is its beginning, and at least one name more leads from it. -/
structure Above (upper path : List Char) : Prop where
  ne_nil : upper ≠ []
  isPrefix : upper <+: path
  names_eq : ∃ more, names path = names upper ++ more ∧ ∃ name ∈ more, name ≠ ['.']

/-- What is above a path is above all below it; the names that lead on come one behind the other. -/
theorem Above.trans {top upper path : List Char} (h : Above top upper) (h' : Above upper path) :
    Above top path := by
  obtain ⟨more, hmore, _⟩ := h.names_eq
  obtain ⟨further, hfurther, name, hname, hdot⟩ := h'.names_eq
  refine ⟨h.ne_nil, h.isPrefix.trans h'.isPrefix, more ++ further, ?_, name, ?_, hdot⟩
  · rw [hfurther, hmore, List.append_assoc]
  · exact List.mem_append_right _ hname

theorem names_append_slash (front path : List Char) :
    names (front ++ '/' :: path) = names front ++ names path := by
  rw [Path.names_eq, segments_append_slash, List.filter_append]
  rfl

/-- The last name of a path of several segments is no filler, for the fillers at the end are
    taken. -/
theorem isFiller_of_settled {parts front : List (List Char)} {name : List Char}
    (h : settled parts = front ++ [name]) (hfront : front ≠ []) : isFiller name = false := by
  cases parts with
  | nil => exact absurd h (by simp [settled])
  | cons first rest =>
    obtain ⟨second, front, rfl⟩ := List.exists_cons_of_ne_nil hfront
    have hrest : rest.rdropWhile isFiller = front ++ [name] := (List.cons.inj h).2
    have hlast := List.rdropWhile_last_not isFiller rest (by rw [hrest]; simp)
    simpa [hrest] using hlast

/-- Some of the first segments of a path lead above it, if a name is among the others: the text
    of these segments is the beginning of its text, also where the first one is empty and stands
    for the root. -/
theorem above_ofSegments {path name : List Char} {base more : List (List Char)}
    (hsegments : segments path = base ++ more) (hbase : base ≠ []) (hname : name ∈ more)
    (hfiller : isFiller name = false) : Above (ofSegments base) path := by
  have hslash : ∀ part ∈ base ++ more, '/' ∉ part :=
    fun part hpart => not_mem_of_mem_segments (hsegments ▸ hpart)
  have hmore : more ≠ [] := List.ne_nil_of_mem hname
  -- the path is the text of these segments, a slash and what follows, with the name in it
  have hpath : join base ++ '/' :: join more = path := by
    rw [← join_append hbase hmore, ← hsegments, join_segments]
  have hlater : name ∈ names (join more) := by
    rw [Path.names_eq,
      segments_join hmore fun part hpart => hslash part (List.mem_append_right _ hpart)]
    exact List.mem_filter.mpr ⟨hname, solid_of_not_isFiller hfiller⟩
  have hdot : name ≠ ['.'] := by
    rintro rfl
    exact absurd hfiller (by decide)
  rw [ofSegments]
  split
  · rename_i hroot
    rw [beq_iff_eq] at hroot
    subst hroot
    refine ⟨by simp, ⟨_, hpath⟩, _, ?_, name, hlater, hdot⟩
    rw [← hpath, names_append_slash]
    rfl
  · rename_i hroot
    refine ⟨fun hnil => hroot ?_, ⟨_, hpath⟩, _, ?_, name, hlater, hdot⟩
    · have hempty := segments_join hbase fun part hpart =>
        hslash part (List.mem_append_left _ hpart)
      rw [join, hnil, segments_nil] at hempty
      rw [← hempty]
      rfl
    · exact (congrArg names hpath.symm).trans (names_append_slash _ _)

/-- The parent of a path is empty or above it, for the parent drops the last name, whatever
    fillers are behind it. -/
theorem above_of_parent? {path parent : List Char} (h : parent? path = some parent) :
    parent = [] ∨ Above parent path := by
  have hsegments := segments_ne_nil path
  obtain ⟨front, last, hlast⟩ :=
    (List.eq_nil_or_concat' (settled (segments path))).resolve_left (settled_ne_nil hsegments)
  rw [parent?] at h
  split at h
  · cases h
  · exact Or.inl (Option.some.inj h).symm
  rename_i hroot hone
  obtain rfl := Option.some.inj h
  have hfront : front ≠ [] := by
    rintro rfl
    exact hone last hlast
  rw [hlast, List.dropLast_concat]
  obtain ⟨fillers, hpath, -⟩ := settled_append hsegments
  -- fillers may stand before the last name as well, and the parent drops them
  obtain ⟨middle, hmiddle, -⟩ := settled_append hfront
  have hall : segments path = settled front ++ (middle ++ last :: fillers) := by
    rw [← List.append_assoc, ← hmiddle, hpath, hlast, List.append_assoc, List.singleton_append]
  have hmem : last ∈ middle ++ last :: fillers := List.mem_append_right _ List.mem_cons_self
  exact Or.inr
    (above_ofSegments hall (settled_ne_nil hfront) hmem (isFiller_of_settled hlast hfront))

/-- **The folders on the way to a parent** are above the path.  By induction on the number of
    parents that are taken, each above the one before it. -/
theorem above_of_mem_ancestors {path upper : List Char} {fuel : Nat}
    (h : upper = [] ∨ Above upper path) :
    ∀ folder ∈ ancestors upper fuel, Above folder path := by
  induction fuel generalizing upper with
  | zero => exact fun folder hfolder => absurd hfolder List.not_mem_nil
  | succ fuel ih =>
    intro folder hfolder
    rw [ancestors] at hfolder
    split at hfolder
    · exact absurd hfolder List.not_mem_nil
    rename_i hne
    have habove : Above upper path := by
      refine h.resolve_left ?_
      rintro rfl
      exact hne rfl
    rcases List.mem_cons.mp hfolder with rfl | hfolder
    · exact habove
    · split at hfolder
      · exact absurd hfolder List.not_mem_nil
      · rename_i parent hparent
        refine ih ?_ folder hfolder
        exact (above_of_parent? hparent).imp_right fun hparent => hparent.trans habove

end CardSearch.Path
