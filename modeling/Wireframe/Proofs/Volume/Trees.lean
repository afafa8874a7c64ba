import Wireframe.Batch
import Wireframe.Store.Directory
import Wireframe.Proofs.FileSystem.Listing
import Wireframe.Proofs.Volume.Changes

/-!
# Volumes that are trees

A plain volume has neither links nor files with two names, so it is a tree of files and directories
(`Volume.flat`). Paths lead to the same places in both, and as long as the system grants every step,
the steps on the volume answer what those on the tree answer, and leave the volume for the tree that
they leave (`Session.Agrees`). So does whatever is made of such steps.
-/

namespace Wireframe

open FileSystem (below? refusal? dropSlashes)

variable {v v' : Volume} {location : Location} {path : Path}

/-! ### The tree of a volume -/

/-- What a node is in a tree. There are no links in a tree, and a directory stands in for one. -/
def Volume.Node.entry (contents : ℕ → ByteArray) : Node → Entry
  | directory | link _ => .directory
  | file number => .file (contents number)

namespace Volume

/-- The tree of the files and directories of a volume. -/
def flat (v : Volume) : FileSystem where
  entries := v.nodes.filterMap fun place node =>
    if place.isEmpty then none else some (node.entry v.contents)
  workingDirectory := v.workingDirectory

/-- The entries of the tree are the nodes of the volume, except for the root. -/
theorem getElem?_entries_flat (v : Volume) (place : Location) :
    v.flat.entries[place]? =
      if place.isEmpty then none else (v.node? place).map (Node.entry v.contents) := by
  rw [flat, Std.ExtTreeMap.getElem?_filterMap', node?]
  split
  · exact Option.bind_fun_none _
  · rw [Option.map_eq_bind]
    rfl

theorem entry?_flat (v : Volume) (place : Location) :
    v.flat.entry? place = (v.node? place).map (Node.entry v.contents) := by
  rw [FileSystem.entry?, getElem?_entries_flat, node?]
  split <;> rfl

/-- A volume with one more entry is a tree with one more entry. -/
theorem flat_eq_put {entry : Entry} (hne : location ≠ [])
    (hworking : v'.workingDirectory = v.workingDirectory)
    (hentry : ∀ place, v'.flat.entry? place =
      if place = location then some entry else v.flat.entry? place) :
    v'.flat = v.flat.put location entry := by
  have hentries : v'.flat.entries = v.flat.entries.insert location entry := by
    refine Std.ExtTreeMap.ext_getElem? fun place => ?_
    have hcompare : compare location place = .eq ↔ place = location := by
      rw [Std.compare_eq_iff_eq, eq_comm]
    have hplace := hentry place
    simp only [Std.ExtTreeMap.getElem?_insert, hcompare]
    by_cases hnil : place = []
    · rw [if_neg (hnil ▸ Ne.symm hne), getElem?_entries_flat, getElem?_entries_flat, hnil]
      rfl
    · simpa [FileSystem.entry?, hnil] using hplace
  rw [flat, FileSystem.put, FileSystem.mk.injEq]
  exact ⟨hentries, hworking⟩

/-- The tree below a directory is that of the volume, with the contents in place. -/
theorem tree_flat (v : Volume) (base : Location) :
    v.flat.tree base = (v.tree base).map fun item => (item.1, item.2.entry v.contents) := by
  rw [FileSystem.tree, flat, Std.ExtTreeMap.toList_filterMap, tree, List.filterMap_filterMap,
    List.map_filterMap]
  refine List.filterMap_congr fun item _ => ?_
  obtain ⟨place, node⟩ := item
  cases place with
  | nil => cases base <;> rfl
  | cons name rest =>
    rcases hbelow : below? base (name :: rest) with _ | _ | ⟨first, others⟩ <;> simp [hbelow]

section Plain

variable (hv : v.Plain)

include hv

/-- Where there are no links, pieces lead where they lead in a tree. -/
theorem follow_flat (links : ℕ) (location : Location) (ps : List String) :
    v.flat.follow location ps = v.follow links location ps := by
  have hwith (onward : Location → List String → Except Fault Location) :
      v.flat.follow location ps = v.followWith onward location ps := by
    induction ps generalizing location with
    | nil => rfl
    | cons piece rest ih =>
      rw [FileSystem.follow, followWith, entry?_flat]
      cases hnode : v.node? location with
      | none => rfl
      | some node =>
        cases node with
        | file number => rfl
        | link target => exact absurd hnode (hv.no_link _ _)
        | directory =>
          -- both take the same branch at every piece, and the branch for links is empty
          simp only [Option.map_some, Node.entry, ih]
          split
          · rfl
          · split
            · rfl
            · split
              · next target hlink => exact absurd hlink (hv.no_link _ _)
              · rfl
  cases links <;> exact hwith _

/-- A path leads to the same node, with no link on the way. -/
theorem find_flat (path : Path) : v.flat.find path =
    (v.find path).map fun found => (found.1, found.2.entry v.contents) := by
  have hfollow : v.flat.follow (v.flat.origin path) path.split.2 = v.locate path :=
    follow_flat hv linkLimit _ _
  rw [FileSystem.find, find, hfollow]
  cases refusal? path with
  | some fault => rfl
  | none =>
    cases v.locate path with
    | error fault => rfl
    | ok found =>
      simp only [entry?_flat]
      cases v.node? found <;> rfl

/-- What is found is no link. -/
theorem find_ne_link (path : Path) (found : Location) (target : Path) :
    v.find path ≠ .ok (found, .link target) := fun h =>
  hv.no_link _ _ (find_eq_ok_iff.mp h).2.2

/-- A new entry gets the same place. -/
theorem site_flat (path : Path) : v.flat.site path = v.site path := by
  have hfollow (ps : List String) :
      v.flat.follow (v.flat.origin path) ps = v.follow linkLimit (v.origin path) ps :=
    follow_flat hv linkLimit _ _
  rw [FileSystem.site, site]
  cases refusal? path with
  | some fault => rfl
  | none =>
    simp only [hfollow, entry?_flat, find_flat hv]
    rcases (dropSlashes path.split.2).getLast?.bind Path.component? with _ | _ | _ | _ | name
    case some.name =>
      simp only
      rcases v.follow linkLimit (v.origin path) (dropSlashes path.split.2).dropLast with
        fault | location
      · rfl
      · rcases hnode : v.node? location with _ | _ | number | target
        · simp [hnode]
        · simp [hnode, Node.entry]
        · simp [hnode, Node.entry]
        · exact absurd hnode (hv.no_link _ _)
    all_goals cases v.find path <;> rfl

theorem kind?_flat (path : Path) : v.flat.kind? path = v.kind? path := by
  rw [FileSystem.kind?, kind?, find_flat hv]
  rcases hfind : v.find path with fault | ⟨found, _ | number | target⟩
  · rfl
  · rfl
  · rfl
  · exact absurd hfind (find_ne_link hv path found target)

/-- Files read the same. -/
theorem readBytes_flat (path : Path) : v.flat.readBytes path = v.readBytes path := by
  rw [FileSystem.readBytes, readBytes, find_flat hv]
  rcases hfind : v.find path with fault | ⟨found, _ | number | target⟩
  · rfl
  · rfl
  · rfl
  · exact absurd hfind (find_ne_link hv path found target)

/-- Directories list the same names. -/
theorem names_flat (path : Path) : v.flat.names path = v.names path := by
  rw [FileSystem.names, names, find_flat hv]
  rcases hfind : v.find path with fault | ⟨found, _ | number | target⟩
  · rfl
  · simp only [Except.map, Node.entry, tree_flat, List.filterMap_map]
    rfl
  · rfl
  · exact absurd hfind (find_ne_link hv path found target)

/-- A plain volume has no link anywhere below a directory. -/
theorem ne_link_of_mem_tree {base : Location} {item : Location × Node} (h : item ∈ v.tree base)
    (target : Path) : item.2 ≠ .link target := by
  obtain ⟨⟨place, node⟩, hmem, hitem⟩ := List.mem_filterMap.mp h
  obtain ⟨hne, rfl, rfl⟩ := FileSystem.tree_item.mp hitem
  rw [Std.ExtTreeMap.mem_toList_iff_getElem?_eq_some] at hmem
  intro hlink
  refine hv.no_link (base ++ item.1) target ?_
  rw [node?, if_neg (by simp [hne]), hmem, hlink]

/-- The same files lie below a directory. -/
theorem filesBelow_flat (path : Path) : v.flat.filesBelow path = v.filesBelow path := by
  rw [FileSystem.filesBelow, filesBelow, find_flat hv]
  rcases hfind : v.find path with fault | ⟨found, _ | number | target⟩
  · rfl
  · simp only [Except.map, Node.entry, tree_flat, List.filterMap_map]
    refine List.filterMap_congr fun item hitem => ?_
    have hlink := ne_link_of_mem_tree hv hitem
    obtain ⟨below, _ | number | target⟩ := item
    · rfl
    · rfl
    · exact absurd rfl (hlink target)
  · rfl
  · exact absurd hfind (find_ne_link hv path found target)

/-- One more directory is one more in the tree. -/
theorem makeDirectory_flat (path : Path) : v.flat.makeDirectory path =
    ((v.makeDirectory path).1, (v.makeDirectory path).2.flat) := by
  rw [FileSystem.makeDirectory, makeDirectory, site_flat hv]
  rcases v.site path with fault | ⟨location, slash⟩ | _
  · rfl
  · simp only [entry?_flat]
    cases hnode : v.node? location with
    | some node => rfl
    | none =>
      have hne : location ≠ [] := by
        rintro rfl
        cases hnode
      have hput : (v.put location .directory).flat = v.flat.put location .directory := by
        refine flat_eq_put hne rfl fun place => ?_
        rw [entry?_flat, entry?_flat, node?_put hne]
        split <;> rfl
      simp only [Option.map_none, hput]
  · rfl

/-- A file that is written is written in the tree. -/
theorem flat_write (hne : location ≠ []) (h : v.node? location = none ∨
    ∃ number, v.node? location = some (.file number)) (bytes : ByteArray) :
    (v.write location bytes).flat = v.flat.put location (.file bytes) := by
  obtain ⟨number, hwrites⟩ := exists_writes hne h bytes
  refine flat_eq_put hne hwrites.keeps.workingDirectory fun place => ?_
  rw [entry?_flat, entry?_flat]
  split
  · next hplace => rw [hplace, hwrites.node, Option.map_some, Node.entry, hwrites.filled]
  · next hplace =>
    rw [hwrites.other place hplace]
    rcases hnode : v.node? place with _ | _ | n | target
    · rfl
    · rfl
    · -- no other name stands for the file
      have hn : n ≠ number := by
        rintro rfl
        rcases h with hnone | ⟨m, hfile⟩
        · exact hwrites.new hnone place hnode
        · have hkept := hwrites.keeps.kept _ _ hfile
          rw [hwrites.node] at hkept
          cases hkept
          exact hplace (hv.one_name _ _ _ hnode hfile)
      simp only [Option.map_some, Node.entry, hwrites.contents n hn]
    · rfl

/-- Without links a path leads to where its last name would be made. -/
theorem locate_of_site (h : v.site path = .ok (.place location false)) :
    v.locate path = .ok location := by
  obtain ⟨-, ps, name, slashes, directory, hends, hslash, hleads, hdirectory, rfl⟩ :=
    site_eq_place h
  obtain rfl : slashes = [] := by simpa using hslash
  rw [locate_eq_ok_iff, hends.pieces]
  exact hleads.append fun links => .name hdirectory hends.isName.not_idle hends.isName.not_up
    (fun target => hv.no_link _ target) .nil

/-- What comes of writing to a file in a tree. -/
theorem writeBytes_flat (path : Path) (bytes : ByteArray) : v.flat.writeBytes path bytes =
    match v.target path with
    | .error fault => (.error fault, v.flat)
    | .ok location => (.ok (), (v.write location bytes).flat) := by
  rw [FileSystem.writeBytes, site_flat hv, target]
  rcases hsite : v.site path with fault | ⟨location, _ | _⟩ | _
  · rfl
  · have hne : location ≠ [] := by
      obtain ⟨-, _, _, _, _, -, -, -, -, rfl⟩ := site_eq_place hsite
      exact List.concat_ne_nil _ _
    simp only [locate_of_site hv hsite, entry?_flat]
    rcases hnode : v.node? location with _ | _ | number | target
    · simp only [flat_write hv hne (.inl hnode)]
      rfl
    · rfl
    · simp only [flat_write hv hne (.inr ⟨number, hnode⟩)]
      rfl
    · exact absurd hnode (hv.no_link _ _)
  · rfl
  · rfl

end Plain

end Volume

/-! ### Steps on trees -/

namespace Session

open Disk (bind_apply)

variable {β γ : Type}

/-- Whether what is done on plain volumes, as long as the system grants every step, is what is done
on their trees. -/
def Agrees (x : StateM Session β) (y : StateM FileSystem β) : Prop :=
  ∀ v : Volume, v.Plain → ∃ answer v', Volume.Plain v' ∧
    x ⟨v, []⟩ = (answer, ⟨v', []⟩) ∧ y v.flat = (answer, v'.flat)

namespace Agrees

protected theorem pure (answer : β) : Agrees (pure answer) (pure answer) := fun v hv =>
  ⟨answer, v, hv, rfl, rfl⟩

/-- Two steps agree if each of them does. -/
protected theorem bind {x : StateM Session β} {y : StateM FileSystem β}
    {f : β → StateM Session γ} {g : β → StateM FileSystem γ} (h : Agrees x y)
    (hfg : ∀ answer, Agrees (f answer) (g answer)) : Agrees (x >>= f) (y >>= g) := by
  intro v hv
  obtain ⟨answer, v₁, hv₁, hx, hy⟩ := h v hv
  obtain ⟨answer', v₂, hv₂, hf, hg⟩ := hfg answer v₁ hv₁
  refine ⟨answer', v₂, hv₂, ?_, ?_⟩
  · rw [bind_apply, hx, hf]
  · rw [bind_apply, hy, hg]

end Agrees

variable (path : Path)

theorem agrees_kind? : Agrees (Disk.kind? path) (Disk.kind? path) := fun v hv =>
  ⟨v.kind? path, v, hv, rfl, congrArg (·, v.flat) (Volume.kind?_flat hv path)⟩

theorem agrees_readBytes : Agrees (Disk.readBytes path) (Disk.readBytes path) := fun v hv =>
  ⟨v.readBytes path, v, hv, rfl, congrArg (·, v.flat) (Volume.readBytes_flat hv path)⟩

theorem agrees_names : Agrees (Disk.names path) (Disk.names path) := fun v hv =>
  ⟨v.names path, v, hv, rfl, congrArg (·, v.flat) (Volume.names_flat hv path)⟩

theorem agrees_filesBelow : Agrees (Disk.filesBelow path) (Disk.filesBelow path) := fun v hv =>
  ⟨v.filesBelow path, v, hv, rfl, congrArg (·, v.flat) (Volume.filesBelow_flat hv path)⟩

theorem agrees_makeDirectory : Agrees (Disk.makeDirectory path) (Disk.makeDirectory path) :=
  fun v hv => ⟨(v.makeDirectory path).1, (v.makeDirectory path).2,
    hv.touches ((v.makeDirectory_grows path).touches path), rfl, Volume.makeDirectory_flat hv path⟩

theorem agrees_writeBytes (bytes : ByteArray) :
    Agrees (Disk.writeBytes path bytes) (Disk.writeBytes path bytes) := by
  intro v hv
  have hsession : (Disk.writeBytes path bytes : StateM Session _) ⟨v, []⟩ =
      match v.target path with
      | .error fault => (.error fault, ⟨v, []⟩)
      | .ok location => (.ok (), ⟨v.write location bytes, []⟩) := rfl
  have htree : (Disk.writeBytes path bytes : StateM FileSystem _) v.flat =
      v.flat.writeBytes path bytes := rfl
  rw [hsession, htree, Volume.writeBytes_flat hv]
  cases htarget : v.target path with
  | error fault => exact ⟨_, v, hv, rfl, rfl⟩
  | ok location =>
    obtain ⟨-, -, hne, hopen⟩ := Volume.target_eq_ok htarget
    obtain ⟨number, hwrites⟩ := Volume.exists_writes hne hopen bytes
    exact ⟨_, _, hv.touches ((Volume.Grows.refl v []).write hwrites htarget), rfl, rfl⟩

theorem agrees_readText : Agrees (Disk.readText path) (Disk.readText path) :=
  (agrees_readBytes path).bind fun _ => .pure _

/-- A chain of directories is made on a plain volume as on its tree. -/
theorem agrees_makeChain (chain : List Path) :
    Agrees (Disk.makeChain chain) (Disk.makeChain chain) := by
  have hisDirectory (path : Path) : Agrees (Disk.isDirectory path) (Disk.isDirectory path) :=
    (agrees_kind? path).bind fun _ => .pure _
  -- the branches are those of the chain, and every one ends in steps that agree
  induction chain with
  | nil => exact .pure _
  | cons path above ih =>
    rw [Disk.makeChain, Disk.makeChain]
    by_cases hempty : path.isEmpty = true
    · rw [if_pos hempty, if_pos hempty]
      exact .pure _
    · rw [if_neg hempty, if_neg hempty]
      refine (agrees_makeDirectory path).bind fun made => ?_
      rcases made with fault | ⟨⟩
      · cases fault with
        | notFound =>
          refine ih.bind fun made => ?_
          rcases made with fault | ⟨⟩
          · exact .pure _
          · refine (agrees_makeDirectory path).bind fun made => ?_
            rcases made with fault | ⟨⟩
            · exact (hisDirectory path).bind fun _ => .pure _
            · exact .pure _
        | _ => exact (hisDirectory path).bind fun _ => .pure _
      · exact .pure _

end Session

namespace DirectoryStore

variable (store : DirectoryStore)

/-- A page is saved on a plain volume as in a tree. -/
theorem agrees_save (id content : String) :
    Session.Agrees (store.save id content) (store.save id content) := by
  have hwrite (path : Path) (text : String) :
      Session.Agrees (Disk.writeText path text) (Disk.writeText path text) :=
    Session.agrees_writeBytes path text.toUTF8
  rw [save, save]
  cases Store.checkId id with
  | error e => exact .pure _
  | ok =>
    refine (Session.agrees_makeChain store.root.ancestors).bind fun made => ?_
    rcases made with fault | ⟨⟩
    · exact .pure _
    · refine (hwrite _ _).bind fun written => ?_
      rcases written with fault | ⟨⟩ <;> exact .pure _

/-- A page is loaded from a plain volume as from a tree. -/
theorem agrees_load (id : String) : Session.Agrees (store.load id) (store.load id) := by
  rw [load, load]
  cases Store.checkId id with
  | error e => exact .pure _
  | ok =>
    refine (Session.agrees_readText (store.pathFor id)).bind fun found => ?_
    rcases found with fault | text
    · cases fault <;> exact .pure _
    · exact .pure _

/-- The ids on a plain volume are those in its tree. -/
theorem agrees_list : Session.Agrees store.list store.list := by
  refine (Session.agrees_kind? store.root).bind fun kind => ?_
  cases kind with
  | none => exact .pure _
  | some kind =>
    refine (Session.agrees_names store.root).bind fun names => ?_
    cases names <;> exact .pure _

/-- **A store on a plain volume is one in a tree**, as long as the system grants every step. -/
theorem agrees_answer (request : Store.Request) :
    Session.Agrees (store.answer request) (store.answer request) := by
  cases request with
  | save id content => exact (store.agrees_save id content).bind fun _ => .pure _
  | load id => exact (store.agrees_load id).bind fun _ => .pure _
  | list => exact store.agrees_list.bind fun _ => .pure _

end DirectoryStore

namespace Batch

/-- **Pages are found on a plain volume as in a tree**, as long as the system grants every step. -/
theorem agrees_discover (root : Path) : Session.Agrees (discover root) (discover root) := by
  refine (Session.agrees_kind? root).bind fun kind => ?_
  rcases kind with _ | _ | _
  · exact .pure _
  · exact .pure _
  · exact (Session.agrees_filesBelow root).bind fun _ => .pure _

/-- A page on a plain volume is drawn as in a tree. -/
theorem agrees_renderFile (theme : Theme Float) (input output : Path) :
    Session.Agrees (renderFile theme input output) (renderFile theme input output) := by
  have hparent : Session.Agrees (makeParent output) (makeParent output) := by
    rw [makeParent, makeParent]
    cases output.parent?.filter (!·.isEmpty) with
    | none => exact .pure _
    | some parent => exact (Session.agrees_makeChain parent.ancestors).bind fun _ => .pure _
  have hpage : Session.Agrees (readPage input) (readPage input) :=
    (Session.agrees_readText input).bind fun _ => .pure _
  refine hpage.bind fun page => ?_
  rcases page with e | text
  · exact .pure _
  · refine hparent.bind fun made => ?_
    rcases made with e | ⟨⟩
    · exact .pure _
    · refine (Session.agrees_writeBytes output (Svg.ofText theme text).toUTF8).bind fun written => ?_
      rcases written with fault | ⟨⟩ <;> exact .pure _

/-- **A batch on a plain volume is drawn as in a tree**, as long as the system grants every step. -/
theorem agrees_renderAll (theme : Theme Float) (inputs : List Path) (root : Path)
    (outDir : Option Path) :
    Session.Agrees (renderAll theme inputs root outDir) (renderAll theme inputs root outDir) := by
  have hrun (all : List Job) : Session.Agrees (runJobs theme all) (runJobs theme all) := by
    induction all with
    | nil => exact .pure _
    | cons job rest ih =>
      rw [runJobs, runJobs]
      refine (agrees_renderFile theme job.input job.output).bind fun drawn => ?_
      rcases drawn with e | bytes
      · exact .pure _
      · exact ih.bind fun _ => .pure _
  rw [renderAll, renderAll]
  cases duplicate? [] (jobs inputs root outDir) with
  | some job => exact .pure _
  | none => exact hrun _

end Batch

end Wireframe
