import StackMachine.Proofs.PathText
import StackMachine.Tool.Assembler

/-!
Where paths lead, and what they lead to after a write.

A write changes one file, under all its places, and nothing else. It neither makes nor unmakes a
directory or a link, so that every path leads to the same place as before.
-/

namespace StackMachine.Files.Tree

variable {t : Tree} {place other : Place} {node : Node} {path : String} {contents : Bytes}

/-! ## 1. Ways -/

/-- The names lead from one place to another, through so many symbolic links. -/
inductive Leads (t : Tree) : Nat → Place → List String → Place → Prop
  | nil (place : Place) : Leads t 0 place [] place
  | step {links : Nat} {place last : Place} {name : String} {rest : List String}
      (enters : t.enter place = .ok ()) (plain : t.link? (place.step name) = none)
      (tail : Leads t links (place.step name) rest last) : Leads t links place (name :: rest) last
  | link {links : Nat} {place last : Place} {name target : String} {rest : List String}
      (enters : t.enter place = .ok ()) (found : t.link? (place.step name) = some target)
      (allowed : refusal? target = none)
      (tail : Leads t links (place.start target) (targetSteps target ++ rest) last) :
      Leads t (links + 1) place (name :: rest) last

variable {start last : Place} {names : List String} {links : Nat}

/-- Following names is right if the detours are. -/
theorem leads_of_follow {detour : Place → List String → Except FileError Place} {n : Nat}
    (hdetour : ∀ p ns, detour p ns = .ok last → ∃ links < n, Leads t links p ns last)
    (h : t.follow detour start names = .ok last) : ∃ links ≤ n, Leads t links start names last := by
  induction names generalizing start with
  | nil =>
    cases h
    exact ⟨0, Nat.zero_le n, .nil _⟩
  | cons name rest ih =>
    rw [follow] at h
    cases henter : t.enter start with
    | error e =>
      rw [henter] at h
      cases h
    | ok _ =>
      cases hlink : t.link? (start.step name) with
      | none =>
        simp only [henter, hlink] at h
        obtain ⟨links, hle, hrest⟩ := ih h
        exact ⟨links, hle, .step henter hlink hrest⟩
      | some target =>
        cases hallowed : refusal? target with
        | some e =>
          simp only [henter, hlink, hallowed] at h
          cases h
        | none =>
          simp only [henter, hlink, hallowed] at h
          obtain ⟨links, hlt, hrest⟩ := hdetour _ _ h
          exact ⟨links + 1, hlt, .link henter hlink hallowed hrest⟩

theorem leads_of_walk {n : Nat} (h : t.walk n start names = .ok last) :
    ∃ links ≤ n, Leads t links start names last := by
  induction n generalizing start names with
  | zero => exact leads_of_follow (fun _ _ hdetour => by cases hdetour) h
  | succ n ih =>
    refine leads_of_follow (fun p ns hdetour => ?_) h
    obtain ⟨links, hle, hleads⟩ := ih hdetour
    exact ⟨links, Nat.lt_succ_of_le hle, hleads⟩

theorem Leads.walk (h : Leads t links start names last) {n : Nat} (hle : links ≤ n) :
    t.walk n start names = .ok last := by
  induction h generalizing n with
  | nil => cases n <;> rfl
  | step enters plain tail ih =>
    have hrest := ih hle
    cases n <;> simpa only [Tree.walk, follow, enters, plain] using hrest
  | link enters found allowed tail ih =>
    obtain ⟨n, rfl⟩ := Nat.exists_eq_add_of_le' (Nat.lt_of_lt_of_le (Nat.succ_pos _) hle)
    have hrest := ih (Nat.le_of_succ_le_succ hle)
    simpa only [Tree.walk, follow, enters, found, allowed] using hrest

theorem walk_eq_ok_iff {n : Nat} :
    t.walk n start names = .ok last ↔ ∃ links ≤ n, Leads t links start names last := by
  constructor
  · exact leads_of_walk
  · rintro ⟨links, hle, h⟩
    exact h.walk hle

theorem Leads.unique {links' : Nat} {last' : Place} (h : Leads t links start names last)
    (h' : Leads t links' start names last') : last = last' := by
  have hwalk := h.walk (Nat.le_max_left links links')
  rw [h'.walk (Nat.le_max_right links links')] at hwalk
  cases hwalk
  rfl

/-- Names that lead somewhere lead there from where the names in front lead. -/
theorem Leads.exists_passed {front rest : List String}
    (h : Leads t links start (front ++ rest) last) :
    ∃ passed, (∃ i ≤ links, Leads t i start front passed) ∧
      ∃ j ≤ links, Leads t j passed rest last := by
  generalize hnames : front ++ rest = names at h
  induction h generalizing front with
  | nil place =>
    obtain ⟨rfl, rfl⟩ := List.append_eq_nil_iff.1 hnames
    exact ⟨place, ⟨0, Nat.le_refl 0, .nil place⟩, 0, Nat.le_refl 0, .nil place⟩
  | @step links place last name tail enters plain leads ih =>
    cases front with
    | nil =>
      rw [List.nil_append] at hnames
      subst hnames
      exact ⟨place, ⟨0, Nat.zero_le _, .nil place⟩, links, Nat.le_refl _,
        .step enters plain leads⟩
    | cons first front =>
      obtain ⟨rfl, hrest⟩ := List.cons.inj hnames
      obtain ⟨passed, ⟨i, hi, hfront⟩, hback⟩ := ih hrest
      exact ⟨passed, ⟨i, hi, .step enters plain hfront⟩, hback⟩
  | @link links place last name target tail enters found allowed leads ih =>
    cases front with
    | nil =>
      rw [List.nil_append] at hnames
      subst hnames
      exact ⟨place, ⟨0, Nat.zero_le _, .nil place⟩, links + 1, Nat.le_refl _,
        .link enters found allowed leads⟩
    | cons first front =>
      obtain ⟨rfl, hrest⟩ : first = name ∧ front ++ rest = tail := List.cons.inj hnames
      -- the detour comes in front of what is left of the names
      have hdetour : targetSteps target ++ front ++ rest = targetSteps target ++ tail := by
        rw [List.append_assoc, hrest]
      obtain ⟨passed, ⟨i, hi, hfront⟩, j, hj, hback⟩ := ih hdetour
      exact ⟨passed, ⟨i + 1, Nat.succ_le_succ hi, .link enters found allowed hfront⟩, j,
        Nat.le_succ_of_le hj, hback⟩

theorem Leads.enters {name : String} {rest : List String}
    (h : Leads t links start (name :: rest) last) : t.enter start = .ok () := by
  cases h <;> assumption

theorem locate_eq_ok_iff :
    t.locate path = .ok place ↔
      refusal? path = none ∧
        ∃ links ≤ mostLinks, Leads t links (t.here.start path) (steps path) place := by
  unfold locate
  cases refusal? path with
  | some e => simp
  | none => simp [walk_eq_ok_iff]

theorem enter_eq_ok_iff :
    t.enter place = .ok () ↔
      ∃ node, t.look place = .ok node ∧ node.kind = .directory ∧ node.refusals.pass = none := by
  unfold enter
  cases t.look place with
  | error e => simp
  | ok node =>
    cases hkind : node.kind with
    | directory => cases hpass : node.refusals.pass <;> simp [hkind, hpass]
    | file contents => simp [hkind]
    | device shows => simp [hkind]
    | link target => simp [hkind]

theorem link?_eq_some_iff {target : String} :
    t.link? place = some target ↔ ∃ node, t.look place = .ok node ∧ node.kind = .link target := by
  unfold link?
  cases t.look place with
  | error e => simp
  | ok node => cases hkind : node.kind <;> simp [hkind]

/-! ## 2. Places that can be written -/

/-- The place takes what is written to it: a file or a device is there that may be written, or
nothing is there and the directory lets a file be created. -/
inductive Takes (t : Tree) (place : Place) : Prop
  | file (node : Node) (old : Bytes) (look_eq : t.look place = .ok node)
      (kind_eq : node.kind = .file old) (granted : node.refusals.write = none)
  | device (node : Node) (shows : Bytes) (look_eq : t.look place = .ok node)
      (kind_eq : node.kind = .device shows) (granted : node.refusals.write = none)
  | nothing (directory : Node) (look_eq : t.look place = .error .notFound)
      (look_up_eq : t.look place.up = .ok directory) (kind_eq : directory.kind = .directory)
      (granted : directory.refusals.write = none)

theorem writeRefusal?_eq_none_iff : t.writeRefusal? place = none ↔ t.Takes place := by
  constructor
  · intro h
    unfold writeRefusal? at h
    cases hlook : t.look place with
    | ok node =>
      cases hkind : node.kind with
      | directory => simp [hlook, hkind] at h
      | link target => simp [hlook, hkind] at h
      | file old => exact .file node old hlook hkind (by simpa [hlook, hkind] using h)
      | device shows => exact .device node shows hlook hkind (by simpa [hlook, hkind] using h)
    | error e =>
      by_cases he : e = .notFound
      · subst he
        cases hup : t.look place.up with
        | error e => simp [hlook, hup] at h
        | ok directory =>
          by_cases hkind : directory.kind = .directory
          · exact .nothing directory hlook hup hkind (by simpa [hlook, hup, hkind] using h)
          · simp [hlook, hup, hkind] at h
      · simp [hlook] at h
  · intro h
    unfold writeRefusal?
    cases h with
    | file node old hlook hkind hgranted => simp [hlook, hkind, hgranted]
    | device node shows hlook hkind hgranted => simp [hlook, hkind, hgranted]
    | nothing directory hlook hup hkind hgranted => simp [hlook, hup, hkind, hgranted]

/-- A device is at the place. -/
def HasDevice (t : Tree) (place : Place) : Prop :=
  ∃ node shows, t.look place = .ok node ∧ node.kind = .device shows

/-- What the file at the place refuses, or a new one if nothing is there. -/
def refusalsAt (t : Tree) (place : Place) : Refusals :=
  match t.look place with
  | .ok node => node.refusals
  | .error _ => t.mask

/-- Both are places of one node, or one place. -/
def SameNode (t : Tree) (place other : Place) : Prop :=
  place = other ∨ ∃ node, t.look place = .ok node ∧ t.look other = .ok node

theorem SameNode.look_eq (h : t.SameNode place other) : t.look place = t.look other := by
  obtain rfl | ⟨node, hplace, hother⟩ := h
  · rfl
  · rw [hplace, hother]

/-! ## 3. Nodes after a write -/

/-- A place is the root, or its name is too long, or it shows what the nodes have there. Which of
the three does not depend on the tree. -/
theorem look_cases (place : Place) :
    (∀ t : Tree, t.look place = .ok ⟨[place], .directory, t.root⟩) ∨
      (∀ t : Tree, t.look place = .error .nameTooLong) ∨
      ∀ t : Tree, t.look place =
        (t.nodes.find? (place ∈ ·.places)).elim (.error .notFound) .ok := by
  cases hname : place.names.getLast? with
  | none =>
    refine .inl fun t => ?_
    rw [look, hname]
  | some name =>
    by_cases hlong : longestName < name.utf8ByteSize
    · refine .inr (.inl fun t => ?_)
      rw [look, hname]
      exact if_pos hlong
    · refine .inr (.inr fun t => ?_)
      rw [look, hname]
      dsimp only
      rw [if_neg hlong]
      cases t.nodes.find? (place ∈ ·.places) <;> rfl

theorem find?_of_look (hlook : t.look place = .ok node) (hkind : node.kind ≠ .directory) :
    t.nodes.find? (place ∈ ·.places) = some node := by
  obtain hroot | hlong | hplace := look_cases place
  · rw [hroot] at hlook
    cases hlook
    exact absurd rfl hkind
  · rw [hlong] at hlook
    cases hlook
  · rw [hplace] at hlook
    cases hfound : t.nodes.find? (place ∈ ·.places) with
    | none =>
      rw [hfound] at hlook
      cases hlook
    | some found =>
      rw [hfound] at hlook
      cases hlook
      rfl

theorem find?_replace {nodes : List Node} (h : nodes.find? (place ∈ ·.places) = some node)
    (other : Place) :
    (replace place contents nodes).find? (other ∈ ·.places) =
      if nodes.find? (other ∈ ·.places) = some node then
        some { node with kind := .file contents }
      else nodes.find? (other ∈ ·.places) := by
  induction nodes with
  | nil => cases h
  | cons first nodes ih =>
    by_cases hplace : place ∈ first.places
    · rw [List.find?_cons_of_pos (by simpa using hplace)] at h
      cases h
      rw [replace, if_pos hplace]
      by_cases hother : other ∈ node.places
      · simp [hother]
      · -- a node that is found further on has the place, unlike this one
        have hne : nodes.find? (other ∈ ·.places) ≠ some node := by
          intro hfound
          have hmem := List.find?_some hfound
          exact hother (of_decide_eq_true hmem)
        simp [hother, hne]
    · rw [List.find?_cons_of_neg (by simpa using hplace)] at h
      rw [replace, if_neg hplace]
      by_cases hother : other ∈ first.places
      · have hne : first ≠ node := by
          rintro rfl
          have hmem := List.find?_some h
          exact hplace (of_decide_eq_true hmem)
        simp [hother, hne]
      · rw [List.find?_cons_of_neg (by simpa using hother),
          List.find?_cons_of_neg (by simpa using hother), ih h]

theorem put_of_file {old : Bytes} (hlook : t.look place = .ok node) (hkind : node.kind = .file old)
    (contents : Bytes) :
    t.put place contents = { t with nodes := replace place contents t.nodes } := by
  simp only [put, hlook, hkind]

theorem put_of_device {shows : Bytes} (hlook : t.look place = .ok node)
    (hkind : node.kind = .device shows) (contents : Bytes) : t.put place contents = t := by
  simp only [put, hlook, hkind]

theorem put_of_nothing {e : FileError} (hlook : t.look place = .error e) (contents : Bytes) :
    t.put place contents =
      { t with nodes := t.nodes ++ [⟨[place], .file contents, t.mask⟩] } := by
  simp only [put, hlook]

theorem here_put (t : Tree) (place : Place) (contents : Bytes) :
    (t.put place contents).here = t.here := by
  unfold put
  split
  · split <;> rfl
  · rfl

/-- In place of a file there is one with other contents. -/
theorem look_put_of_file {old : Bytes} (hlook : t.look place = .ok node)
    (hkind : node.kind = .file old) (contents : Bytes) (hother : t.look other = .ok node) :
    (t.put place contents).look other = .ok { node with kind := .file contents } := by
  have hfile : node.kind ≠ .directory := by simp [hkind]
  rw [put_of_file hlook hkind]
  obtain hroot | hlong | hlooks := look_cases other
  · rw [hroot] at hother
    cases hother
    cases hkind
  · rw [hlong] at hother
    cases hother
  · rw [hlooks, find?_replace (find?_of_look hlook hfile), if_pos (find?_of_look hother hfile)]
    rfl

/-- Places of another node are what they were. -/
theorem look_put_of_other_file {old : Bytes} (hlook : t.look place = .ok node)
    (hkind : node.kind = .file old) (contents : Bytes) (hother : t.look other ≠ .ok node) :
    (t.put place contents).look other = t.look other := by
  have hfile : node.kind ≠ .directory := by simp [hkind]
  rw [put_of_file hlook hkind]
  obtain hroot | hlong | hlooks := look_cases other
  · rw [hroot, hroot]
  · rw [hlong, hlong]
  · have hfound : t.nodes.find? (other ∈ ·.places) ≠ some node := by
      intro hfound
      rw [hlooks, hfound] at hother
      exact hother rfl
    rw [hlooks, hlooks, find?_replace (find?_of_look hlook hfile), if_neg hfound]

/-- Where nothing was there is a new file, and every other place is what it was. -/
theorem look_put_of_nothing (hlook : t.look place = .error .notFound) (contents : Bytes)
    (other : Place) :
    (t.put place contents).look other =
      if other = place then .ok ⟨[place], .file contents, t.mask⟩ else t.look other := by
  rw [put_of_nothing hlook]
  obtain hroot | hlong | hother := look_cases other
  · rw [hroot, hroot, if_neg]
    rintro rfl
    rw [hroot] at hlook
    cases hlook
  · rw [hlong, hlong, if_neg]
    rintro rfl
    rw [hlong] at hlook
    cases hlook
  · rw [hother, hother, List.find?_append]
    by_cases heq : other = place
    · subst heq
      have hnone : t.nodes.find? (other ∈ ·.places) = none := by
        rw [hother] at hlook
        cases hfound : t.nodes.find? (other ∈ ·.places) with
        | none => rfl
        | some found =>
          rw [hfound] at hlook
          cases hlook
      simp [hnone]
    · cases t.nodes.find? (other ∈ ·.places) <;> simp [heq]

theorem look_put_of_not_sameNode (h : t.Takes place) (contents : Bytes)
    (hother : ¬ t.SameNode other place) : (t.put place contents).look other = t.look other := by
  cases h with
  | file node old hlook hkind =>
    refine look_put_of_other_file hlook hkind contents fun heq => ?_
    exact hother (.inr ⟨node, heq, hlook⟩)
  | device node shows hlook hkind => rw [put_of_device hlook hkind]
  | nothing directory hlook =>
    rw [look_put_of_nothing hlook, if_neg]
    intro heq
    exact hother (.inl heq)

/-- What was written is found under all places of the file. -/
theorem look_put_of_sameNode (h : t.Takes place) (hdevice : ¬ t.HasDevice place)
    (contents : Bytes) (hother : t.SameNode other place) :
    ∃ node, (t.put place contents).look other = .ok node ∧ node.kind = .file contents ∧
      node.refusals = t.refusalsAt place := by
  cases h with
  | file node old hlook hkind =>
    have hsame : t.look other = .ok node := hother.look_eq.trans hlook
    refine ⟨_, look_put_of_file hlook hkind contents hsame, rfl, ?_⟩
    simp only [refusalsAt, hlook]
  | device node shows hlook hkind => exact absurd ⟨node, shows, hlook, hkind⟩ hdevice
  | nothing directory hlook =>
    have heq : other = place := by
      obtain heq | ⟨node, -, hplace⟩ := hother
      · exact heq
      · cases hlook.symm.trans hplace
    refine ⟨⟨[place], .file contents, t.mask⟩, ?_, rfl, ?_⟩
    · rw [look_put_of_nothing hlook, if_pos heq]
    · simp only [refusalsAt, hlook]

/-! ## 4. Ways after a write -/

/-- A place that takes what is written is neither a directory nor a link, and it becomes neither. -/
theorem look_put_cases (h : t.Takes place) (contents : Bytes) (other : Place) :
    (t.put place contents).look other = t.look other ∨
      (∀ node, t.look other = .ok node → ∃ old, node.kind = .file old) ∧
        ∃ node, (t.put place contents).look other = .ok node ∧ node.kind = .file contents := by
  by_cases hsame : t.SameNode other place
  · cases h with
    | file node old hlook hkind =>
      have hother := hsame.look_eq.trans hlook
      refine .inr ⟨fun found hfound => ?_, _, look_put_of_file hlook hkind contents hother, rfl⟩
      cases hfound.symm.trans hother
      exact ⟨old, hkind⟩
    | device node shows hlook hkind =>
      rw [put_of_device hlook hkind]
      exact .inl rfl
    | nothing directory hlook =>
      have hmissing := hsame.look_eq.trans hlook
      by_cases heq : other = place
      · have hnew := look_put_of_nothing hlook contents other
        rw [if_pos heq] at hnew
        refine .inr ⟨fun found hfound => ?_, _, hnew, rfl⟩
        cases hfound.symm.trans hmissing
      · rw [look_put_of_nothing hlook, if_neg heq]
        exact .inl rfl
  · exact .inl (look_put_of_not_sameNode h contents hsame)

/-- What is no file is found where it was, and only there. -/
theorem look_put_eq_ok_iff (h : t.Takes place) (contents : Bytes) (other : Place)
    (hkind : ∀ old, node.kind ≠ .file old) :
    (t.put place contents).look other = .ok node ↔ t.look other = .ok node := by
  obtain heq | ⟨hbefore, found, hafter, hfile⟩ := look_put_cases h contents other
  · rw [heq]
  · constructor
    · intro hlook
      rw [hafter] at hlook
      cases hlook
      exact absurd hfile (hkind contents)
    · intro hlook
      obtain ⟨old, hold⟩ := hbefore node hlook
      exact absurd hold (hkind old)

theorem enter_put (h : t.Takes place) (contents : Bytes) (other : Place) :
    (t.put place contents).enter other = .ok () ↔ t.enter other = .ok () := by
  rw [enter_eq_ok_iff, enter_eq_ok_iff]
  refine exists_congr fun node => and_congr_left fun ⟨hkind, _⟩ => ?_
  exact look_put_eq_ok_iff h contents other (by simp [hkind])

theorem link?_put (h : t.Takes place) (contents : Bytes) (other : Place) :
    (t.put place contents).link? other = t.link? other := by
  apply Option.ext
  intro target
  rw [link?_eq_some_iff, link?_eq_some_iff]
  refine exists_congr fun node => and_congr_left fun hkind => ?_
  exact look_put_eq_ok_iff h contents other (by simp [hkind])

theorem Leads.transfer {t' : Tree} (henter : ∀ p, t.enter p = .ok () → t'.enter p = .ok ())
    (hlink : ∀ p, t'.link? p = t.link? p) (h : Leads t links start names last) :
    Leads t' links start names last := by
  induction h with
  | nil place => exact .nil place
  | step enters plain tail ih => exact .step (henter _ enters) ((hlink _).trans plain) ih
  | link enters found allowed tail ih =>
    exact .link (henter _ enters) ((hlink _).trans found) allowed ih

theorem locate_put (h : t.Takes place) (contents : Bytes) (path : String) :
    (t.put place contents).locate path = .ok last ↔ t.locate path = .ok last := by
  have hleads (links : Nat) (start : Place) (names : List String) :
      Leads (t.put place contents) links start names last ↔ Leads t links start names last := by
    constructor
    · exact Leads.transfer (fun p => (enter_put h contents p).1) fun p =>
        (link?_put h contents p).symm
    · exact Leads.transfer (fun p => (enter_put h contents p).2) fun p => link?_put h contents p
  simp only [locate_eq_ok_iff, here_put, hleads]

/-! ## 5. Reading what was written -/

theorem write_eq_ok_iff {next : Tree} :
    t.write path contents = .ok next ↔
      ∃ place, t.locate path = .ok place ∧ asksDirectory path = false ∧ t.Takes place ∧
        next = t.put place contents := by
  unfold write
  cases hlocate : t.locate path with
  | error e => simp
  | ok place =>
    cases hslash : asksDirectory path with
    | true => simp
    | false =>
      have htakes : t.writeRefusal? place = none ↔ t.Takes place := writeRefusal?_eq_none_iff
      cases hrefusal : t.writeRefusal? place with
      | some e =>
        have hnot : ¬ t.Takes place := by
          rw [← htakes, hrefusal]
          exact Option.some_ne_none e
        simp [hrefusal, hnot]
      | none => simp [hrefusal, htakes.1 hrefusal, eq_comm]

/-- The path names something that can be written. -/
def Admits (t : Tree) (path : String) : Prop :=
  ∃ place, t.locate path = .ok place ∧ asksDirectory path = false ∧ t.Takes place

theorem exists_write_iff : (∃ next, t.write path contents = .ok next) ↔ t.Admits path := by
  constructor
  · rintro ⟨next, h⟩
    obtain ⟨place, hlocate, hslash, htakes, -⟩ := write_eq_ok_iff.1 h
    exact ⟨place, hlocate, hslash, htakes⟩
  · rintro ⟨place, hlocate, hslash, htakes⟩
    exact ⟨_, write_eq_ok_iff.2 ⟨place, hlocate, hslash, htakes, rfl⟩⟩

theorem find_eq_ok_iff (hslash : asksDirectory path = false) :
    t.find path = .ok node ↔ ∃ place, t.locate path = .ok place ∧ t.look place = .ok node := by
  unfold find
  cases t.locate path with
  | error e => simp
  | ok place => cases hlook : t.look place <;> simp [hlook, hslash]

/-- The path leads to a device. -/
def IsDevice (t : Tree) (path : String) : Prop :=
  ∃ place, t.locate path = .ok place ∧ t.HasDevice place

/-- What is written to the path is kept and may be read again. -/
structure Keeps (t : Tree) (path : String) : Prop where
  admits : t.Admits path
  regular : ¬ t.IsDevice path
  readable : ∀ place, t.locate path = .ok place → (t.refusalsAt place).read = none

theorem find_of_write {next : Tree} (h : t.write path contents = .ok next)
    (hdevice : ¬ t.IsDevice path) :
    ∃ place node, t.locate path = .ok place ∧ next.find path = .ok node ∧
      node.kind = .file contents ∧ node.refusals = t.refusalsAt place := by
  obtain ⟨place, hlocate, hslash, htakes, rfl⟩ := write_eq_ok_iff.1 h
  have hregular : ¬ t.HasDevice place := fun hhas => hdevice ⟨place, hlocate, hhas⟩
  obtain ⟨node, hlook, hkind, hrefusals⟩ :=
    look_put_of_sameNode htakes hregular contents (.inl rfl)
  have hfind :=
    (find_eq_ok_iff hslash).2 ⟨place, (locate_put htakes contents path).2 hlocate, hlook⟩
  exact ⟨place, node, hlocate, hfind, hkind, hrefusals⟩

theorem read_of_find (h : t.find path = .ok node) (hkind : node.kind = .file contents)
    (hgranted : node.refusals.read = none) : t.read path = .ok contents := by
  rw [read, h]
  simp only [Node.read, hgranted, hkind]

theorem Keeps.write (h : t.Keeps path) (contents : Bytes) :
    ∃ next, t.write path contents = .ok next ∧ next.read path = .ok contents := by
  obtain ⟨next, hwrite⟩ := exists_write_iff.2 h.admits
  obtain ⟨place, node, hlocate, hfind, hkind, hrefusals⟩ := find_of_write hwrite h.regular
  have hgranted : node.refusals.read = none := by
    rw [hrefusals]
    exact h.readable place hlocate
  exact ⟨next, hwrite, read_of_find hfind hkind hgranted⟩

/-! ## 6. The directory of a path -/

theorem start_append {front : String} (hne : front ≠ "") (back : String) (place : Place) :
    place.start (front ++ back) = place.start front := by
  obtain ⟨c, cs, hchars⟩ := List.exists_cons_of_ne_nil (mt String.toList_eq_nil_iff.1 hne)
  rw [Place.start, Place.start, String.toList_append, hchars]
  rfl

theorem refusal?_of_append {front back : String} (hne : front ≠ "")
    (h : refusal? (front ++ back) = none) : refusal? front = none := by
  rw [refusal?_eq_none_iff, String.toList_append, String.utf8ByteSize_append] at h
  obtain ⟨hzero, -, hlong⟩ := h
  exact refusal?_eq_none_iff.2 ⟨fun hmem => hzero (List.mem_append_left _ hmem), hne, by omega⟩

/-- The text of the directory opens the path, which goes on with the name that was left out. -/
theorem steps_of_parent? {directory : String} (h : Path.parent? path = some directory) :
    (∃ back, path = directory ++ back) ∧
      ∃ name more, steps path = steps directory ++ name :: more := by
  obtain ⟨lead, front, rest, last, hlead, hnames, hmem, hlast, hpath, hdirectory⟩ :=
    Path.exists_of_parent? h
  obtain ⟨tail, htail⟩ := Path.exists_intercalate_append front rest
  constructor
  · refine ⟨String.ofList tail, ?_⟩
    rw [← String.toList_inj, String.toList_append, hdirectory, String.toList_ofList,
      String.toList_ofList, hpath, htail, List.append_assoc]
  · have hpath' : path = String.ofList (lead ++ ['/'].intercalate (front ++ rest)) := by
      rw [← hpath, String.ofList_toList]
    have hmore : rest.filter (· ≠ []) ≠ [] := by
      intro hnil
      exact absurd (List.filter_eq_nil_iff.1 hnil last hmem) (by simp [hlast])
    obtain ⟨name, more, hfilter⟩ := List.exists_cons_of_ne_nil hmore
    refine ⟨String.ofList name, more.map String.ofList, ?_⟩
    rw [hpath', hdirectory, steps_ofList hlead hnames,
      steps_ofList hlead fun name h => hnames name (List.mem_append_left rest h),
      List.filter_append, List.map_append, hfilter, List.map_cons]

/-- A path that leads somewhere leads there from a directory, and its text names that directory. -/
theorem contains_parent {directory : String} (h : t.locate path = .ok place)
    (hparent : Path.parent? path = some directory) (hne : directory ≠ "") :
    t.contains directory = true := by
  obtain ⟨hrefusal, links, hlinks, hleads⟩ := locate_eq_ok_iff.1 h
  obtain ⟨⟨back, hopens⟩, name, more, hsteps⟩ := steps_of_parent? hparent
  rw [hsteps, hopens, start_append hne] at hleads
  obtain ⟨passed, ⟨i, hi, hfront⟩, j, -, hback⟩ := hleads.exists_passed
  obtain ⟨node, hlook, hkind, -⟩ := enter_eq_ok_iff.1 hback.enters
  have hlocate : t.locate directory = .ok passed := by
    rw [hopens] at hrefusal
    exact locate_eq_ok_iff.2
      ⟨refusal?_of_append hne hrefusal, i, Nat.le_trans hi hlinks, hfront⟩
  have hfind : t.find directory = .ok node := by
    simp [find, hlocate, hlook, hkind]
  rw [contains, hfind]
  rfl

end StackMachine.Files.Tree

namespace StackMachine.Tool.Assembler

theorem missingDirectory?_eq_none {t : Files.Tree} {path : String} (h : t.Admits path) :
    missingDirectory? t.contains path = none := by
  obtain ⟨place, hlocate, -, -⟩ := h
  unfold missingDirectory?
  cases hparent : Files.Path.parent? path with
  | none => rfl
  | some directory =>
    by_cases hempty : directory = ""
    · simp [hempty]
    · simp [Files.Tree.contains_parent hlocate hparent hempty]

end StackMachine.Tool.Assembler
