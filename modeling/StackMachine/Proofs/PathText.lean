import StackMachine.Files.Path
import StackMachine.Files.Tree

/-!
The text of a path, of the directory that it names, and of its neighbours in that directory.

A path is names between slashes. Its directory keeps the names in front of the last one, without
those that do not count, and a name that is joined to the directory stands behind them.
-/

namespace StackMachine.Files

namespace Path

/-! ## 1. Names -/

theorem notMem_of_mem_names {cs name : List Char} (h : name ∈ names cs) : '/' ∉ name := by
  unfold names at h
  induction cs generalizing name with
  | nil =>
    rw [List.splitOn_nil, List.mem_singleton] at h
    rw [h]
    exact List.not_mem_nil
  | cons c cs ih =>
    rw [List.splitOn_cons_eq_if_modifyHead] at h
    obtain ⟨first, others, hsplit⟩ := List.exists_cons_of_ne_nil (List.splitOn_ne_nil '/' cs)
    rw [hsplit] at h ih
    by_cases hc : c = '/'
    · rw [if_pos (by simp [hc])] at h
      obtain rfl | h := List.mem_cons.1 h
      · exact List.not_mem_nil
      · exact ih h
    · rw [if_neg (by simp [hc]), List.modifyHead_cons] at h
      obtain rfl | h := List.mem_cons.1 h
      · rw [List.mem_cons]
        rintro (rfl | h)
        · exact hc rfl
        · exact ih List.mem_cons_self h
      · exact ih (List.mem_cons_of_mem first h)

/-- What is left of the names ends in a name that is not empty, unless nothing is left. -/
theorem trimEnd_cases (rooted : Bool) (ns : List (List Char)) :
    trimEnd rooted ns = [] ∨
      ∃ front last rest, last ≠ [] ∧ ns = front ++ last :: rest ∧
        trimEnd rooted ns = front ++ [last] := by
  have hns :
      ns = (ns.reverse.dropWhile isIdle).reverse ++ (ns.reverse.takeWhile isIdle).reverse := by
    rw [← List.reverse_append, List.takeWhile_append_dropWhile, List.reverse_reverse]
  unfold trimEnd
  cases hkept : ns.reverse.dropWhile isIdle with
  | nil =>
    -- nothing counts, but a dot in front is kept
    dsimp only [List.reverse_nil]
    split
    · next h =>
      have hhead : ns.head? = some ['.'] := of_decide_eq_true (Bool.and_eq_true_iff.1 h).2
      obtain ⟨rest, rfl⟩ := List.head?_eq_some_iff.1 hhead
      exact .inr ⟨[], ['.'], rest, by decide, rfl, rfl⟩
    · exact .inl rfl
  | cons last front =>
    have hlast : isIdle last = false := by
      have hne : ns.reverse.dropWhile isIdle ≠ [] := hkept ▸ List.cons_ne_nil last front
      have hhead := List.head_dropWhile_not isIdle hne
      simpa only [hkept, List.head_cons] using hhead
    rw [hkept] at hns
    simp only [List.reverse_cons, List.append_assoc, List.singleton_append] at hns ⊢
    refine .inr ⟨front.reverse, last, _, ?_, hns, by simp⟩
    rintro rfl
    cases hlast

/-- The names that are dropped at the end do not count. -/
theorem exists_trimEnd_append (rooted : Bool) (ns : List (List Char)) :
    ∃ idle, ns = trimEnd rooted ns ++ idle ∧ ∀ name ∈ idle, isIdle name = true := by
  have hns :
      ns = (ns.reverse.dropWhile isIdle).reverse ++ (ns.reverse.takeWhile isIdle).reverse := by
    rw [← List.reverse_append, List.takeWhile_append_dropWhile, List.reverse_reverse]
  have hidle : ∀ name ∈ (ns.reverse.takeWhile isIdle).reverse, isIdle name = true := by
    intro name hname
    exact List.all_eq_true.1 List.all_takeWhile name (List.mem_reverse.1 hname)
  unfold trimEnd
  dsimp only
  split
  · next h =>
    -- nothing counts, and the dot in front is kept all the same
    simp only [Bool.and_eq_true, List.isEmpty_iff, decide_eq_true_eq] at h
    obtain ⟨⟨hkept, -⟩, hhead⟩ := h
    obtain ⟨rest, rfl⟩ := List.head?_eq_some_iff.1 hhead
    rw [hkept, List.nil_append] at hns
    rw [← hns] at hidle
    exact ⟨rest, rfl, fun name hname => hidle name (List.mem_cons_of_mem _ hname)⟩
  · exact ⟨_, hns, hidle⟩

theorem split_eq (path : String) :
    ∃ rooted cs, path.toList = (if rooted then ['/'] else []) ++ cs ∧
      split path = (rooted, trimEnd rooted (names cs)) ∧
      (rooted = false → cs.head? ≠ some '/') := by
  unfold split
  split
  · next rest h => exact ⟨true, rest, h, rfl, fun hfalse => by cases hfalse⟩
  · next h =>
    refine ⟨false, path.toList, rfl, rfl, fun _ hhead => ?_⟩
    obtain ⟨rest, hrest⟩ := List.head?_eq_some_iff.1 hhead
    exact h rest hrest

/-- The directory of a path has the names in front, and a name that is not empty is left out. -/
theorem exists_of_parent? {path directory : String} (h : parent? path = some directory) :
    ∃ lead front rest last, (lead = [] ∨ lead = ['/']) ∧ (∀ name ∈ front ++ rest, '/' ∉ name) ∧
      last ∈ rest ∧ last ≠ [] ∧
      path.toList = lead ++ ['/'].intercalate (front ++ rest) ∧
      directory = String.ofList (lead ++ ['/'].intercalate front) := by
  obtain ⟨rooted, cs, hpath, hsplit, -⟩ := split_eq path
  unfold parent? at h
  rw [hsplit] at h
  dsimp only at h
  obtain hnil | ⟨shown, last, rest, hlast, hnames, htrim⟩ := trimEnd_cases rooted (names cs)
  · rw [hnil] at h
    cases h
  · rw [htrim, List.dropLast_concat] at h
    obtain ⟨idle, hidle, -⟩ := exists_trimEnd_append rooted shown
    have hnames' : names cs = trimEnd rooted shown ++ (idle ++ last :: rest) := by
      rw [← List.append_assoc, ← hidle, hnames]
    refine ⟨if rooted then ['/'] else [], trimEnd rooted shown, idle ++ last :: rest, last, ?_, ?_,
      by simp, hlast, ?_, ?_⟩
    · cases rooted
      · exact .inl rfl
      · exact .inr rfl
    · intro name hname
      rw [← hnames'] at hname
      exact notMem_of_mem_names hname
    · rw [← hnames', hpath, names, List.intercalate_splitOn]
    · have hsome : ¬ (shown ++ [last]).isEmpty = true := by simp
      rw [if_neg hsome] at h
      cases rooted <;> cases h <;> rfl

theorem exists_intercalate_append (front rest : List (List Char)) :
    ∃ tail, ['/'].intercalate (front ++ rest) = ['/'].intercalate front ++ tail := by
  induction front with
  | nil => exact ⟨_, rfl⟩
  | cons name front ih =>
    obtain ⟨tail, htail⟩ := ih
    by_cases hfront : front = []
    · subst hfront
      cases rest with
      | nil => exact ⟨[], by simp⟩
      | cons next rest =>
        exact ⟨['/'] ++ ['/'].intercalate (next :: rest), by simp [List.intercalate_cons_cons]⟩
    · have hmore : front ++ rest ≠ [] := fun h => hfront (List.append_eq_nil_iff.1 h).1
      refine ⟨tail, ?_⟩
      rw [List.cons_append, List.intercalate_cons_of_ne_nil hmore,
        List.intercalate_cons_of_ne_nil hfront, htail]
      simp

/-! ## 2. Paths that end in a name -/

theorem intercalate_concat {ns : List (List Char)} (hne : ns ≠ []) (name : List Char) :
    ['/'].intercalate (ns ++ [name]) = ['/'].intercalate ns ++ '/' :: name := by
  induction ns with
  | nil => exact absurd rfl hne
  | cons first rest ih =>
    by_cases hrest : rest = []
    · subst hrest
      simp [List.intercalate_cons_cons]
    · rw [List.cons_append, List.intercalate_cons_of_ne_nil (by simp), ih hrest,
        List.intercalate_cons_of_ne_nil hrest]
      simp

theorem trimEnd_concat (rooted : Bool) (shown : List (List Char)) {last : List Char}
    (h : isIdle last = false) :
    trimEnd rooted (shown ++ [last]) = shown ++ [last] := by
  have hkept : ((shown ++ [last]).reverse.dropWhile isIdle).reverse = shown ++ [last] := by
    rw [List.reverse_append, List.reverse_singleton, List.singleton_append,
      List.dropWhile_cons_of_neg (by simp [h]), List.reverse_cons, List.reverse_reverse]
  unfold trimEnd
  dsimp only
  rw [hkept]
  simp

/-- The slash in front of a path from the root. -/
def lead (rooted : Bool) : List Char := if rooted then ['/'] else []

/-- The path is the names `shown`, and `last` behind them. -/
structure EndsIn (path : String) (rooted : Bool) (shown : List (List Char)) (last : List Char) :
    Prop where
  toList_eq : path.toList = lead rooted ++ ['/'].intercalate (shown ++ [last])
  plain : ∀ name ∈ shown ++ [last], '/' ∉ name
  last_ne : last ≠ []
  head_ne : rooted = false → path.toList.head? ≠ some '/'

/-- A path that does not ask for a directory ends in a name. -/
theorem exists_endsIn {path : String} (hne : path ≠ "") (hslash : Tree.asksDirectory path = false) :
    ∃ rooted shown last, EndsIn path rooted shown last := by
  obtain ⟨rooted, cs, hpath, -, hhead⟩ := split_eq path
  obtain ⟨shown, last, hnames⟩ : ∃ shown last, names cs = shown ++ [last] :=
    ⟨_, _, (List.dropLast_concat_getLast (List.splitOn_ne_nil '/' cs)).symm⟩
  have hcs : cs = ['/'].intercalate (shown ++ [last]) := by
    rw [← hnames, names, List.intercalate_splitOn]
  have hend : path.toList.getLast? ≠ some '/' := of_decide_eq_false hslash
  refine ⟨rooted, shown, last, ⟨hcs ▸ hpath, ?_, ?_, ?_⟩⟩
  · intro name hname
    exact notMem_of_mem_names (hnames ▸ hname)
  · -- an empty name at the end would stand behind a slash, or be the whole path
    intro hlast
    rw [hlast] at hcs
    by_cases hshown : shown = []
    · rw [hshown] at hcs
      change cs = [] at hcs
      rw [hcs, List.append_nil] at hpath
      cases rooted
      · exact hne (String.toList_eq_nil_iff.1 hpath)
      · exact hend (by rw [hpath]; rfl)
    · rw [intercalate_concat hshown] at hcs
      exact hend (by rw [hpath, hcs, ← List.append_assoc, List.getLast?_concat])
  · intro hrooted
    subst hrooted
    rw [hpath]
    exact hhead rfl

theorem EndsIn.split_eq {path : String} {rooted : Bool} {shown : List (List Char)}
    {last : List Char} (h : EndsIn path rooted shown last) :
    split path = (rooted, trimEnd rooted (shown ++ [last])) := by
  have hnames : names (['/'].intercalate (shown ++ [last])) = shown ++ [last] :=
    List.splitOn_intercalate '/' h.plain (by simp)
  obtain ⟨rooted', cs, hpath, hsplit, hhead⟩ := Path.split_eq path
  -- both readings of the path agree on its first character
  have hrooted : rooted' = rooted := by
    have htext := h.toList_eq
    have hinput := h.head_ne
    cases rooted <;> cases rooted'
    · rfl
    · exact absurd (by rw [hpath]; rfl) (hinput rfl)
    · exact absurd (by rw [htext] at hpath; exact congrArg List.head? hpath.symm) (hhead rfl)
    · rfl
  subst hrooted
  have hcs : cs = ['/'].intercalate (shown ++ [last]) := by
    have htext := hpath.symm.trans h.toList_eq
    exact List.append_cancel_left htext
  rw [hsplit, hcs, hnames]

theorem parent?_of_endsIn {path : String} {rooted : Bool} {shown : List (List Char)}
    {last : List Char} (h : EndsIn path rooted shown last) (hidle : isIdle last = false) :
    parent? path =
      some (String.ofList (lead rooted ++ ['/'].intercalate (trimEnd rooted shown))) := by
  unfold parent?
  rw [h.split_eq, trimEnd_concat rooted shown hidle]
  dsimp only
  rw [if_neg (by simp), List.dropLast_concat]
  cases rooted <;> rfl

theorem fileName?_of_endsIn {path : String} {rooted : Bool} {shown : List (List Char)}
    {last : List Char} (h : EndsIn path rooted shown last) (hidle : isIdle last = false)
    (hup : last ≠ ['.', '.']) :
    fileName? path = some (String.ofList last) := by
  have hdot : last ≠ ['.'] := by
    intro heq
    rw [heq] at hidle
    cases hidle
  unfold fileName?
  rw [h.split_eq, trimEnd_concat rooted shown hidle, List.getLast?_concat, Option.filter_some,
    if_pos (decide_eq_true ⟨hdot, hup⟩), Option.map_some]

theorem fileName?_of_endsIn_up {path : String} {rooted : Bool} {shown : List (List Char)}
    {last : List Char} (h : EndsIn path rooted shown last) (hup : last = ['.', '.']) :
    fileName? path = none := by
  subst hup
  unfold fileName?
  rw [h.split_eq, trimEnd_concat rooted shown rfl, List.getLast?_concat]
  rfl

/-- A path that starts anywhere but at the root has a directory that does so too. -/
theorem EndsIn.head?_directory_ne {path : String} {shown : List (List Char)} {last : List Char}
    (h : EndsIn path false shown last) (hne : trimEnd false shown ≠ []) (rest : List Char) :
    (['/'].intercalate (trimEnd false shown) ++ rest).head? ≠ some '/' := by
  have hbody : ['/'].intercalate (trimEnd false shown) ≠ [] := by
    obtain hnil | ⟨front, name, -, hname, -, hconcat⟩ := trimEnd_cases false shown
    · exact absurd hnil hne
    · rw [hconcat]
      by_cases hfront : front = []
      · simpa [hfront] using hname
      · simp [intercalate_concat hfront]
  -- the path goes on behind the text of its directory
  obtain ⟨idle, hkept, -⟩ := exists_trimEnd_append false shown
  obtain ⟨tail, htail⟩ := exists_intercalate_append (trimEnd false shown) (idle ++ [last])
  rw [← List.append_assoc, ← hkept] at htail
  have hpath := h.head_ne rfl
  rw [h.toList_eq, htail] at hpath
  obtain ⟨c, cs, hchars⟩ := List.exists_cons_of_ne_nil hbody
  rw [hchars] at hpath ⊢
  change some c ≠ some '/' at hpath
  exact hpath

/-- Behind the text of a directory, a name is one name more. -/
theorem join_ofList (rooted : Bool) {shown : List (List Char)} (hplain : ∀ name ∈ shown, '/' ∉ name)
    (name : String) :
    join (String.ofList (lead rooted ++ ['/'].intercalate (trimEnd rooted shown))) name =
      String.ofList (lead rooted ++ ['/'].intercalate (trimEnd rooted shown ++ [name.toList])) := by
  obtain hnil | ⟨front, last, rest, hlast, hshown, hkept⟩ := trimEnd_cases rooted shown
  · rw [hnil]
    cases rooted
    · simp [join, lead]
    · rw [← String.toList_inj]
      simp [join, lead]
  · -- the directory ends in a name, and so not in a slash
    obtain ⟨init, c, rfl⟩ : ∃ init c, last = init ++ [c] :=
      ⟨_, _, (List.dropLast_concat_getLast hlast).symm⟩
    have hc : c ≠ '/' := by
      intro heq
      exact hplain (init ++ [c]) (by rw [hshown]; simp) (by simp [heq])
    have hbody : ∃ body, lead rooted ++ ['/'].intercalate (trimEnd rooted shown) = body ++ [c] := by
      rw [hkept]
      by_cases hfront : front = []
      · subst hfront
        exact ⟨lead rooted ++ init, by simp⟩
      · exact ⟨lead rooted ++ ['/'].intercalate front ++ '/' :: init,
          by simp [intercalate_concat hfront]⟩
    obtain ⟨body, hbody⟩ := hbody
    have hne : trimEnd rooted shown ≠ [] := by
      rw [hkept]
      simp
    rw [intercalate_concat hne, ← List.append_assoc, hbody]
    unfold join
    rw [String.toList_ofList, List.getLast?_concat]
    split
    · next heq => cases heq
    · next heq => exact absurd (Option.some.inj heq) hc
    · rw [← String.toList_inj]
      simp

/-! ## 3. Stems -/

theorem mem_of_mem_stem {name : String} {c : Char} (h : c ∈ (stem name).toList) :
    c ∈ name.toList := by
  unfold stem at h
  dsimp only at h
  split at h
  · next d rest hdrop =>
    rw [String.toList_ofList, List.mem_reverse] at h
    have hsuffix :=
      List.dropWhile_suffix (fun c : Char => decide (c ≠ '.')) (l := name.toList.reverse)
    rw [hdrop] at hsuffix
    exact List.mem_reverse.1 (hsuffix.subset (List.mem_cons_of_mem _ h))
  · exact h

/-- The stem loses an extension exactly if something stands in front of its dot. -/
theorem stem_append_eq_iff {name : String} :
    stem name ++ ".bm" = name ↔ ∃ front, front ≠ "" ∧ name = front ++ ".bm" := by
  constructor
  · intro h
    refine ⟨stem name, ?_, h.symm⟩
    intro hstem
    rw [hstem] at h
    rw [← h] at hstem
    exact absurd hstem (by decide +kernel)
  · intro h
    obtain ⟨front, hfront, rfl⟩ := h
    obtain ⟨c, rest, hchars⟩ := List.exists_cons_of_ne_nil (mt String.toList_eq_nil_iff.1 hfront)
    obtain ⟨init, d, hlast⟩ : ∃ init d, front.toList = init ++ [d] :=
      ⟨_, _, (List.dropLast_concat_getLast (l := front.toList) (by rw [hchars]; simp)).symm⟩
    have hdrop :
        (front ++ ".bm").toList.reverse.dropWhile (· ≠ '.') = '.' :: d :: init.reverse := by
      rw [String.toList_append, List.reverse_append, hlast]
      show List.dropWhile _ ('m' :: 'b' :: '.' :: _) = _
      simp
    have hstem : stem (front ++ ".bm") = String.ofList (d :: init.reverse).reverse := by
      unfold stem
      dsimp only
      rw [hdrop]
      rfl
    rw [hstem, List.reverse_cons, List.reverse_reverse, ← hlast, String.ofList_toList]

end Path

/-! ## 4. Steps -/

namespace Tree

theorem steps_ofList {lead : List Char} (hlead : lead = [] ∨ lead = ['/']) {ns : List (List Char)}
    (hns : ∀ name ∈ ns, '/' ∉ name) :
    steps (String.ofList (lead ++ ['/'].intercalate ns)) =
      (ns.filter (· ≠ [])).map String.ofList := by
  have hbody : (['/'].intercalate ns).splitOn '/' = if ns = [] then [[]] else ns := by
    split
    · next hnil => rw [hnil]; rfl
    · next hne => exact List.splitOn_intercalate '/' hns hne
  have hnames : ((['/'].intercalate ns).splitOn '/').filter (· ≠ []) = ns.filter (· ≠ []) := by
    rw [hbody]
    split
    · next hnil => rw [hnil]; rfl
    · rfl
  unfold steps
  rw [String.toList_ofList]
  obtain rfl | rfl := hlead
  · rw [List.nil_append, hnames]
  · -- the slash in front makes an empty name
    rw [List.singleton_append, List.splitOn_cons_eq_if_modifyHead, if_pos (by rfl),
      List.filter_cons_of_neg (by simp), hnames]

theorem refusal?_eq_none_iff {path : String} :
    refusal? path = none ↔ '\x00' ∉ path.toList ∧ path ≠ "" ∧ path.utf8ByteSize ≤ longestPath := by
  unfold refusal?
  by_cases hzero : '\x00' ∈ path.toList
  · simp [hzero]
  · by_cases hempty : path = ""
    · simp [hempty]
    · by_cases hlong : longestPath < path.utf8ByteSize
      · simp [hzero, hempty, hlong]
      · simp [hzero, hempty, hlong, Nat.not_lt.1 hlong]

end Tree
end StackMachine.Files
