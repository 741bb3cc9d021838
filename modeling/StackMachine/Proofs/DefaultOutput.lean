import StackMachine.Proofs.OutputFile

/-!
Where the assembler writes when no output is named: into the directory of its input, under the
input's name with another extension. The input survives unless this is the input itself, because it
already has the extension of program images or because of a link.

Text and tree are told apart. The text of the output path has the names of the input path in front
of its last one, without those that do not count; in the tree these names lead to the same
directory.
-/

namespace StackMachine.Files.Tree

variable {t : Tree} {start last directory : Place} {input : String} {contents : Bytes}
  {links : Nat}

open Tool.Assembler (outputPath)

/-! ## 1. The text of the default output -/

/-- The name of the default output. -/
def imageName (input : String) : String :=
  ((Path.fileName? input).map Path.stem).getD "" ++ ".bm"

theorem imageName_ne_of_length_lt (input : String) {short : String} (hshort : short.length < 3) :
    imageName input ≠ short := by
  intro heq
  have hlength := congrArg String.length heq
  rw [imageName, String.length_append] at hlength
  change _ + 3 = _ at hlength
  omega

section

variable {rooted : Bool} {shown : List (List Char)} {name : List Char}
  (h : Path.EndsIn input rooted shown name)

include h

theorem steps_of_endsIn :
    steps input = (shown.filter (· ≠ [])).map String.ofList ++ [String.ofList name] := by
  have hinput : input =
      String.ofList (Path.lead rooted ++ ['/'].intercalate (shown ++ [name])) := by
    rw [← h.toList_eq, String.ofList_toList]
  have hlead : Path.lead rooted = [] ∨ Path.lead rooted = ['/'] := by
    cases rooted
    · exact .inl rfl
    · exact .inr rfl
  rw [hinput, steps_ofList hlead h.plain, List.filter_append, List.map_append]
  simp [h.last_ne]

theorem start_of_endsIn (p : Place) : p.start input = if rooted then .root else p := by
  unfold Place.start
  have hhead : input.toList.head? = some '/' ↔ rooted = true := by
    constructor
    · intro hslash
      by_contra hrooted
      exact h.head_ne (Bool.not_eq_true _ ▸ hrooted) hslash
    · intro hrooted
      rw [h.toList_eq, hrooted]
      rfl
  simp only [hhead]

variable (hidle : Path.isIdle name = false)

include hidle

theorem slash_notMem_imageName : '/' ∉ (imageName input).toList := by
  rw [imageName, String.toList_append, List.mem_append, not_or]
  refine ⟨fun hmem => ?_, by decide +kernel⟩
  by_cases hup : name = ['.', '.']
  · rw [Path.fileName?_of_endsIn_up h hup] at hmem
    cases hmem
  · rw [Path.fileName?_of_endsIn h hidle hup] at hmem
    have hname := Path.mem_of_mem_stem hmem
    rw [String.toList_ofList] at hname
    exact h.plain name (by simp) hname

/-- The text of the default output: the names that count of the directory, and the name of the
image. -/
theorem outputPath_of_endsIn :
    Path.EndsIn (outputPath input []) rooted (Path.trimEnd rooted shown)
      (imageName input).toList := by
  have hshown : ∀ name ∈ shown, '/' ∉ name := fun name hname =>
    h.plain name (List.mem_append_left _ hname)
  obtain ⟨idle, hkept, -⟩ := Path.exists_trimEnd_append rooted shown
  have hplain : ∀ name ∈ Path.trimEnd rooted shown, '/' ∉ name := by
    intro name hname
    exact hshown name (by rw [hkept]; exact List.mem_append_left _ hname)
  have himage := slash_notMem_imageName h hidle
  have htext : (outputPath input []).toList =
      Path.lead rooted ++
        ['/'].intercalate (Path.trimEnd rooted shown ++ [(imageName input).toList]) := by
    show (Path.join ((Path.parent? input).getD ".") (imageName input)).toList = _
    rw [Path.parent?_of_endsIn h hidle, Option.getD_some, Path.join_ofList rooted hshown,
      String.toList_ofList]
  refine ⟨htext, ?_, ?_, ?_⟩
  · intro name hname
    obtain hmem | rfl := List.mem_append.1 hname |>.imp_right List.mem_singleton.1
    · exact hplain name hmem
    · exact himage
  · rw [imageName, String.toList_append]
    simp
  · intro hrooted
    subst hrooted
    rw [htext, show Path.lead false = [] from rfl, List.nil_append]
    by_cases hne : Path.trimEnd false shown = []
    · -- the image stands alone
      rw [hne, List.nil_append, List.intercalate_singleton]
      intro hhead
      exact himage (List.mem_of_mem_head? hhead)
    · rw [Path.intercalate_concat hne]
      exact h.head?_directory_ne hne _

end

/-! ## 2. The directory of the default output -/

/-- A dot leads nowhere else. -/
theorem Leads.of_dots {dots : List String} (hdots : ∀ d ∈ dots, d = ".")
    (h : Leads t links start dots last) : last = start := by
  induction dots generalizing links start with
  | nil =>
    cases h
    rfl
  | cons d dots ih =>
    obtain rfl : d = "." := hdots d List.mem_cons_self
    cases h with
    | step enters plain tail => exact ih (fun d hd => hdots d (List.mem_cons_of_mem _ hd)) tail
    | link enters found =>
      -- a directory is no link
      obtain ⟨node, hlook, hkind, -⟩ := enter_eq_ok_iff.1 enters
      obtain ⟨node', hlook', hkind'⟩ := link?_eq_some_iff.1 found
      cases hlook.symm.trans hlook'
      cases hkind.symm.trans hkind'

/-- The names that do not count in a directory are dots, and so the others lead to the same
place. -/
theorem Leads.trimEnd_unique {links' : Nat} {directory' : Place} {rooted : Bool}
    {shown : List (List Char)}
    (h : Leads t links start ((shown.filter (· ≠ [])).map String.ofList) directory)
    (h' : Leads t links' start
      (((Path.trimEnd rooted shown).filter (· ≠ [])).map String.ofList) directory') :
    directory = directory' := by
  obtain ⟨idle, hkept, hdots⟩ := Path.exists_trimEnd_append rooted shown
  rw [hkept, List.filter_append, List.map_append] at h
  obtain ⟨passed, ⟨i, -, hpassed⟩, j, -, hrest⟩ := h.exists_passed
  rw [← hpassed.unique h']
  refine hrest.of_dots fun d hd => ?_
  obtain ⟨name, hmem, rfl⟩ := List.mem_map.1 hd
  obtain ⟨hidle, hname⟩ := List.mem_filter.1 hmem
  have hcases := hdots name hidle
  simp only [Path.isIdle, Bool.or_eq_true, decide_eq_true_eq] at hcases hname
  rw [hcases.resolve_left hname]

theorem read_eq_ok_iff :
    t.read input = .ok contents ↔
      ∃ place node, t.locate input = .ok place ∧ t.look place = .ok node ∧
        asksDirectory input = false ∧ node.read = .ok contents := by
  unfold read find
  cases t.locate input with
  | error e => simp
  | ok place =>
    cases hlook : t.look place with
    | error e => simp [hlook]
    | ok node =>
      by_cases hkind : node.kind = .directory
      · have hread : node.read ≠ .ok contents := by
          unfold Node.read
          cases node.refusals.read <;> simp [hkind]
        simp [hlook, hkind, hread]
      · cases hslash : asksDirectory input <;> simp [hlook, hkind]

/-- Nothing that can be read is a directory. -/
theorem kind_ne_directory {node : Node} (h : node.read = .ok contents) :
    node.kind ≠ .directory := by
  intro hkind
  unfold Node.read at h
  cases hrefused : node.refusals.read <;> simp [hrefused, hkind] at h

/-- A dot leads to the directory itself. -/
theorem Leads.name_ne_dot {place : Place} {name : String} {node : Node}
    (h : Leads t links directory [name] place) (hlook : t.look place = .ok node)
    (hkind : node.kind ≠ .directory) : name ≠ "." := by
  intro hdot
  obtain ⟨found, hfound, hdirectory, -⟩ := enter_eq_ok_iff.1 h.enters
  have hplace : place = directory := h.of_dots (by simpa using hdot)
  rw [hplace, hfound] at hlook
  cases hlook
  exact hkind hdirectory

/-- A file that can be read is in a directory, under the last name of its path, and the default
output is in the same directory under the name of the image. -/
theorem exists_directory (hread : t.read input = .ok contents) :
    ∃ (directory : Place) (name : String) (place : Place) (links : Nat),
      t.locate input = .ok place ∧ Leads t links directory [name] place ∧ name ≠ "." ∧
      Path.fileName? input = (if name = ".." then none else some name) ∧
      ∀ output, t.locate (outputPath input []) = .ok output →
        ∃ links, Leads t links directory [imageName input] output := by
  obtain ⟨place, node, hlocate, hlook, hslash, hbytes⟩ := read_eq_ok_iff.1 hread
  obtain ⟨hrefusal, links, -, hleads⟩ := locate_eq_ok_iff.1 hlocate
  obtain ⟨-, hne, -⟩ := refusal?_eq_none_iff.1 hrefusal
  obtain ⟨rooted, shown, name, h⟩ := Path.exists_endsIn hne hslash
  rw [steps_of_endsIn h] at hleads
  obtain ⟨directory, ⟨i, -, hfront⟩, j, -, hback⟩ := hleads.exists_passed
  have hdot : String.ofList name ≠ "." := hback.name_ne_dot hlook (kind_ne_directory hbytes)
  have hidle : Path.isIdle name = false := by
    have hname : name ≠ ['.'] := fun heq => hdot (congrArg String.ofList heq)
    simp [Path.isIdle, h.last_ne, hname]
  refine ⟨directory, String.ofList name, place, j, hlocate, hback, hdot, ?_, ?_⟩
  · by_cases hup : name = ['.', '.']
    · rw [Path.fileName?_of_endsIn_up h hup, if_pos (congrArg String.ofList hup)]
    · rw [Path.fileName?_of_endsIn h hidle hup, if_neg]
      intro heq
      exact hup (String.ofList_injective heq)
  · intro output houtput
    have himage := outputPath_of_endsIn h hidle
    obtain ⟨-, links', -, hleads'⟩ := locate_eq_ok_iff.1 houtput
    rw [steps_of_endsIn himage, String.ofList_toList, start_of_endsIn himage,
      ← start_of_endsIn h] at hleads'
    obtain ⟨directory', ⟨i', -, hfront'⟩, j', -, hback'⟩ := hleads'.exists_passed
    rw [← hfront.trimEnd_unique hfront'] at hback'
    exact ⟨j', hback'⟩

/-! ## 3. Trees without links -/

/-- There is no symbolic link, and no node has two places. -/
def Linkless (t : Tree) : Prop :=
  ∀ node ∈ t.nodes, node.places.length ≤ 1 ∧ ∀ target, node.kind ≠ .link target

variable {place other : Place}

theorem mem_nodes_of_look {node : Node} (hlook : t.look place = .ok node)
    (hkind : node.kind ≠ .directory) : node ∈ t.nodes ∧ place ∈ node.places := by
  have hfound := find?_of_look hlook hkind
  have hmem := List.find?_some hfound
  exact ⟨List.mem_of_find?_eq_some hfound, of_decide_eq_true hmem⟩

theorem Linkless.link?_eq_none (h : t.Linkless) (place : Place) : t.link? place = none := by
  rw [Option.eq_none_iff_forall_ne_some]
  intro target hlink
  obtain ⟨node, hlook, hkind⟩ := link?_eq_some_iff.1 hlink
  have hmem := (mem_nodes_of_look hlook (by simp [hkind])).1
  exact (h node hmem).2 target hkind

theorem Linkless.eq_step {name : String} (h : t.Linkless)
    (hleads : Leads t links directory [name] place) : place = directory.step name := by
  cases hleads with
  | step enters plain tail =>
    cases tail
    rfl
  | link enters found => cases (h.link?_eq_none _).symm.trans found

theorem Linkless.eq_of_sameNode {node : Node} (h : t.Linkless) (hlook : t.look place = .ok node)
    (hkind : node.kind ≠ .directory) (hsame : t.SameNode place other) : place = other := by
  obtain heq | ⟨found, hplace, hother⟩ := hsame
  · exact heq
  · cases hlook.symm.trans hplace
    obtain ⟨hnode, hmem⟩ := mem_nodes_of_look hplace hkind
    obtain ⟨-, hmem'⟩ := mem_nodes_of_look hother hkind
    -- a list of one place holds no two
    have hlength := (h node hnode).1
    obtain ⟨only, honly⟩ : ∃ only, node.places = [only] :=
      List.length_eq_one_iff.1 (Nat.le_antisymm hlength (List.length_pos_of_mem hmem))
    rw [honly, List.mem_singleton] at hmem hmem'
    rw [hmem, hmem']

/-! ## 4. Files after a write -/

variable {path : String} {next : Tree} {old : Bytes}

theorem read_write_of_not_sameFile (h : t.write path contents = .ok next)
    (hother : ¬ t.SameFile input path) (hread : t.read input = .ok old) :
    next.read input = .ok old := by
  obtain ⟨place, hlocate, -, htakes, rfl⟩ := write_eq_ok_iff.1 h
  obtain ⟨found, node, hfound, hlook, hslash, hbytes⟩ := read_eq_ok_iff.1 hread
  have hkept : (t.put place contents).look found = .ok node := by
    rw [look_put_of_not_sameNode htakes, hlook]
    intro hsame
    exact hother ⟨found, place, hfound, hlocate, hsame⟩
  exact read_eq_ok_iff.2
    ⟨found, node, (locate_put htakes contents input).2 hfound, hkept, hslash, hbytes⟩

/-- Under every path of a file that can be read, what was written is read. -/
theorem read_write_of_sameFile (h : t.write path contents = .ok next)
    (hsame : t.SameFile input path) (hdevice : ¬ t.IsDevice input)
    (hread : t.read input = .ok old) : next.read input = .ok contents := by
  obtain ⟨place, hlocate, -, htakes, rfl⟩ := write_eq_ok_iff.1 h
  obtain ⟨found, node, hfound, hlook, hslash, hbytes⟩ := read_eq_ok_iff.1 hread
  obtain ⟨found', place', hfound', hlocate', hnode⟩ := hsame
  cases hfound.symm.trans hfound'
  cases hlocate.symm.trans hlocate'
  have hplace : t.look place = .ok node := hnode.look_eq.symm.trans hlook
  have hregular : ¬ t.HasDevice place := by
    rintro ⟨found'', shows, hlook'', hkind⟩
    exact hdevice ⟨found, hfound, found'', shows, hnode.look_eq.trans hlook'', hkind⟩
  obtain ⟨changed, hchanged, hkind, hrefusals⟩ :=
    look_put_of_sameNode htakes hregular contents hnode
  have hgranted : changed.refusals.read = none := by
    simp only [hrefusals, refusalsAt, hplace]
    unfold Node.read at hbytes
    cases hrefused : node.refusals.read with
    | none => rfl
    | some e => simp [hrefused] at hbytes
  refine read_eq_ok_iff.2
    ⟨found, changed, (locate_put htakes contents input).2 hfound, hchanged, hslash, ?_⟩
  simp only [Node.read, hgranted, hkind]

end StackMachine.Files.Tree

/-! ## 5. What becomes of the source -/

namespace StackMachine.Tool.Assembler

open Files

/-- The last name of the path ends in the extension of program images, and something stands in front
of it. -/
def IsImagePath (path : String) : Prop :=
  ∃ front, front ≠ "" ∧ Path.fileName? path = some (front ++ ".bm")

variable {input output : String} {t : Tree} {contents : Bytes} {p : Program}

theorem isImagePath_iff {name : String} (hname : Path.fileName? input = some name) :
    IsImagePath input ↔ Tree.imageName input = name := by
  rw [IsImagePath, Tree.imageName, hname, Option.map_some, Option.getD_some,
    Path.stem_append_eq_iff]
  simp only [Option.some.injEq]

/-- An input with the name of an image is its own default output. -/
theorem sameFile_of_isImagePath (hread : t.read input = .ok contents)
    (hadmits : t.Admits (outputPath input [])) (himage : IsImagePath input) :
    t.SameFile input (outputPath input []) := by
  obtain ⟨directory, name, place, links, hplace, hleads, -, hname, houtput⟩ :=
    Tree.exists_directory hread
  obtain ⟨output, hlocate, -, -⟩ := hadmits
  obtain ⟨links', hleads'⟩ := houtput output hlocate
  have hsome : Path.fileName? input = some name := by
    obtain ⟨front, -, hfront⟩ := himage
    rw [hname] at hfront ⊢
    split at hfront
    · cases hfront
    · next hup => rw [if_neg hup]
  rw [(isImagePath_iff hsome).1 himage] at hleads'
  exact ⟨place, output, hplace, hlocate, .inl (hleads.unique hleads')⟩

/-- Without links, no other input is its own default output. -/
theorem isImagePath_of_sameFile (hlinkless : t.Linkless) (hread : t.read input = .ok contents)
    (hsame : t.SameFile input (outputPath input [])) : IsImagePath input := by
  obtain ⟨directory, name, place, links, hplace, hleads, hdot, hname, houtput⟩ :=
    Tree.exists_directory hread
  obtain ⟨place', output, hplace', hlocate, hnode⟩ := hsame
  cases hplace.symm.trans hplace'
  obtain ⟨found, node, hfound, hlook, -, hbytes⟩ := Tree.read_eq_ok_iff.1 hread
  cases hplace.symm.trans hfound
  obtain ⟨links', hleads'⟩ := houtput output hlocate
  have hsteps : directory.step name = directory.step (Tree.imageName input) := by
    rw [← hlinkless.eq_step hleads, ← hlinkless.eq_step hleads']
    exact hlinkless.eq_of_sameNode hlook (Tree.kind_ne_directory hbytes) hnode
  have himageDot : Tree.imageName input ≠ "." := Tree.imageName_ne_of_length_lt input (by decide)
  have himageUp : Tree.imageName input ≠ ".." := Tree.imageName_ne_of_length_lt input (by decide)
  unfold Place.step at hsteps
  rw [if_neg hdot, if_neg himageDot, if_neg himageUp] at hsteps
  by_cases hup : name = ".."
  · -- a step up ends in fewer names than the image has
    rw [if_pos hup, Place.up] at hsteps
    have hlength := congrArg (fun p : Place => p.names.length) hsteps
    simp only [List.length_dropLast, List.length_append, List.length_singleton] at hlength
    omega
  · rw [if_neg hup] at hsteps hname
    have himage : name = Tree.imageName input := by simpa using hsteps
    exact (isImagePath_iff hname).2 himage.symm

theorem exists_of_compiles_singleton (h : Compiles t [input] output p) :
    output = outputPath input [] ∧ t.Admits output ∧
      ∃ source, t.read input = .ok (Text.encode source) := by
  generalize harguments : [input] = arguments at h
  obtain ⟨first, options, source, p, -, hread, -, hadmits⟩ := h
  obtain ⟨rfl, hrest⟩ := List.cons.inj harguments
  -- an option takes two arguments
  have hoptions : options = [] := by
    cases options with
    | nil => rfl
    | cons o options => cases hrest
  subst hoptions
  exact ⟨rfl, hadmits, source, hread⟩

/-- A run that names no output keeps its source, for every tree of files and every input, unless the
default output is the input itself. There a run that compiles leaves the image of the program in
place of the source, if that is in a file and not in a device. The default output is the input
wherever the input has the name of an image, and where there are no links, only there. -/
theorem run_keeps_source (name input : String) (t : Tree) (c : Console) :
    let next := (run name [input] t c).2.1
    (¬ t.SameFile input (outputPath input []) → next.read input = t.read input) ∧
      ∀ output p, Compiles t [input] output p →
        output = outputPath input [] ∧
        (t.SameFile input output → ¬ t.IsDevice input → next.read input = .ok p.image) ∧
        (IsImagePath input → t.SameFile input output) ∧
        (t.Linkless → t.SameFile input output → IsImagePath input) := by
  intro next
  refine ⟨fun hother => ?_, fun output p h => ?_⟩
  · by_cases hcompiles : ∃ output p, Compiles t [input] output p
    · obtain ⟨output, p, h⟩ := hcompiles
      obtain ⟨written, c', hrun, hwrite⟩ := run_of_compiles name c h
      have hnext : next = written := congrArg (fun answer => answer.2.1) hrun
      obtain ⟨rfl, -, source, hread⟩ := exists_of_compiles_singleton h
      rw [hnext, hread]
      exact Tree.read_write_of_not_sameFile hwrite hother hread
    · obtain ⟨status, c', hrun, -⟩ := run_of_not_compiles name c hcompiles
      have hnext : next = t := congrArg (fun answer => answer.2.1) hrun
      rw [hnext]
  · obtain ⟨written, c', hrun, hwrite⟩ := run_of_compiles name c h
    have hnext : next = written := congrArg (fun answer => answer.2.1) hrun
    obtain ⟨rfl, hadmits, source, hread⟩ := exists_of_compiles_singleton h
    rw [hnext]
    exact ⟨rfl, fun hsame hdevice => Tree.read_write_of_sameFile hwrite hsame hdevice hread,
      sameFile_of_isImagePath hread hadmits,
      fun hlinkless => isImagePath_of_sameFile hlinkless hread⟩

/-- An input with two extensions, below a directory that its path names with a dot. The image takes
the place of nothing. -/
theorem run_keeps_source_beside_image :
    let t : Tree :=
      { nodes := [⟨[⟨["d"]⟩], .directory, .empty⟩,
          ⟨[⟨["d", "p.bm.basm"]⟩], .file (Text.encode "HALT"), .empty⟩]
        here := .root }
    let next := (run "assembler" ["d/./p.bm.basm"] t (.new true ⟨[]⟩)).2.1
    ¬ t.SameFile "d/./p.bm.basm" (outputPath "d/./p.bm.basm" []) ∧
      next.read "d/p.bm.bm" = .ok [10, 0, 0, 0, 0, 0, 0, 0, 0, 0, 0, 0] ∧
      next.read "d/./p.bm.basm" = .ok (Text.encode "HALT") := by
  intro t next
  have hinput : t.locate "d/./p.bm.basm" = .ok ⟨["d", "p.bm.basm"]⟩ := by decide +kernel
  have houtput : t.locate (outputPath "d/./p.bm.basm" []) = .ok ⟨["d", "p.bm.bm"]⟩ := by
    decide +kernel
  have hother : ¬ t.SameFile "d/./p.bm.basm" (outputPath "d/./p.bm.basm" []) := by
    rintro ⟨place, place', hplace, hplace', hsame⟩
    cases hinput.symm.trans hplace
    cases houtput.symm.trans hplace'
    -- there is a file at the first place and nothing at the second
    have hmissing : t.look ⟨["d", "p.bm.bm"]⟩ = .error .notFound := by decide +kernel
    have hfile : t.look ⟨["d", "p.bm.basm"]⟩ ≠ .error .notFound := by decide +kernel
    exact hfile (hsame.look_eq.trans hmissing)
  refine ⟨hother, by decide +kernel, ?_⟩
  exact ((run_keeps_source "assembler" "d/./p.bm.basm" t _).1 hother).trans (by decide +kernel)

/-- A source under the name of an image does not survive its assembly. Nor does one under another
name to which the name of the image is a link. -/
theorem source_replaced_by_image :
    let image : Bytes := [10, 0, 0, 0, 0, 0, 0, 0, 0, 0, 0, 0]
    let t : Tree :=
      { nodes := [⟨[⟨["p.bm"]⟩], .file (Text.encode "HALT"), .empty⟩,
          ⟨[⟨["q.basm"]⟩], .file (Text.encode "HALT"), .empty⟩,
          ⟨[⟨["q.bm"]⟩], .link "q.basm", .empty⟩,
          ⟨[⟨["r.basm"]⟩, ⟨["r.bm"]⟩], .file (Text.encode "HALT"), .empty⟩]
        here := .root }
    ∀ input ∈ ["p.bm", "q.basm", "r.basm"],
      t.read input = .ok (Text.encode "HALT") ∧
        (run "assembler" [input] t (.new true ⟨[]⟩)).2.1.read input = .ok image ∧
        (run "assembler" [input] t (.new true ⟨[]⟩)).2.1.read input ≠ t.read input := by
  intro image t
  decide +kernel

end StackMachine.Tool.Assembler
