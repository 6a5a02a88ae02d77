import Catalogue.Proofs.Flags
import Catalogue.Proofs.Layers
import Mathlib.Data.List.Forall2

/-!
# Which source decides about a setting

Four layers are laid over one another, two of them files that need not be there, and the command
line comes on top. Key by key, the command line decides if it gives a text to the flag of the key.
If it does not, the highest layer decides that says anything about the key (`Key.Settles`). Two
things count as said that do not look so: a layer that says that there is nothing leaves the key
unset, whatever lower layers say; and a list in the place of a section gives its elements to the
keys in their order, as long as no higher layer says anything about that section.
-/

namespace Catalogue.Settings

namespace Key

/-- The section of a key. -/
def sectionName : Key → String
  | .host | .port | .gracefulShutdown | .requestTimeout => "server"
  | .level | .json => "logging"
  | .url | .maxConnections => "database"
  | .capacity => "cache"

/-- The name of a key in its section. -/
def name : Key → String
  | .host => "host"
  | .port => "port"
  | .gracefulShutdown => "graceful_shutdown_seconds"
  | .requestTimeout => "request_timeout_seconds"
  | .level => "level"
  | .json => "json"
  | .url => "url"
  | .maxConnections => "max_connections"
  | .capacity => "capacity"

/-- The names in the section of a key, in their order. -/
def row : Key → List String
  | .host | .port | .gracefulShutdown | .requestTimeout =>
    ["host", "port", "graceful_shutdown_seconds", "request_timeout_seconds"]
  | .level | .json => ["level", "json"]
  | .url | .maxConnections => ["url", "max_connections"]
  | .capacity => ["capacity"]

/-- Where a key stands in the tree of settings. -/
def path (key : Key) : List String := [key.sectionName, key.name]

/-- The variable that is about a key, in lower case. -/
def variableName (key : Key) : String := "products__" ++ key.sectionName ++ "__" ++ key.name

/-- What a value of a source means for a key. -/
def ofTree? : (key : Key) → Tree → Option key.Value
  | .host, tree | .level, tree | .url, tree => tree.toText?
  | .port, tree => (tree.toUnsigned? 16).map UInt16.ofNat
  | .gracefulShutdown, tree | .requestTimeout, tree | .capacity, tree =>
    (tree.toUnsigned? 64).map UInt64.ofNat
  | .json, tree => tree.toBool?
  | .maxConnections, tree => (tree.toUnsigned? 32).map UInt32.ofNat

/-- What a layer says about a key. -/
def toldBy (key : Key) (layer : Layer) : Option Tree := layer.tells key.path

/-- The element of a list that stands in the place of a key. -/
def elementOf (key : Key) (items : List Tree) : Tree :=
  ((key.row.zip items).lookup key.name).getD .nothing

/-- Whether a layer says anything about the section of a key, and what it says about the key if it
has a list in the place of the section. -/
def listedBy (key : Key) (layer : Layer) : Option (Option Tree) :=
  (layer.tells [key.sectionName]).map fun value =>
    match value with
    | .list items => some (key.elementOf items)
    | _ => none

/-- What comes of a value of a source: what it means, or nothing of nothing. -/
def Yields (key : Key) (value : Tree) (result : Option key.Value) : Prop :=
  (value = .nothing ∧ result = none) ∨ ∃ v, key.ofTree? value = some v ∧ result = some v

/-- What becomes of a key where flags were given texts, above some layers. -/
structure Settles (key : Key) (given : List (Flag × String)) (layers : List Layer)
    (result : Option key.Value) : Prop where
  of_flag : ∀ text, (key.flag, text) ∈ given →
    ∃ value, key.ofText? text = some value ∧ result = some value
  of_list : (∀ text, (key.flag, text) ∉ given) →
    ∀ element, Highest key.listedBy layers (some element) → key.Yields element result
  of_layer : (∀ text, (key.flag, text) ∉ given) →
    (∀ element, ¬ Highest key.listedBy layers (some element)) →
      ∀ value, Highest key.toldBy layers value → key.Yields value result
  unset_iff : (∀ text, (key.flag, text) ∉ given) →
    (∀ element, ¬ Highest key.listedBy layers (some element)) →
      (result = none ↔
        (∀ layer ∈ layers, key.toldBy layer = none) ∨ Highest key.toldBy layers .nothing)

end Key

/-- The layers of the sources: the defaults, the local settings, the file that was asked for, and
the environment. -/
def Sources.layers? (sources : Sources) (configFile : Option String) : Option (List Layer) := do
  let defaults ← sources.entries? false "config/default"
  let locals ← sources.entries? false "products"
  let named ←
    match configFile with
    | none => some []
    | some name => sources.entries? true name
  let assigned := sources.environment.filterMap fun (name, value) => Sources.entryOf? name value
  return [defaults, locals, named, assigned]

/-- The values that are handed on to be validated, if the sources can be read. -/
def handed? (sources : Sources) (invocation : Invocation) : Option Raw :=
  ((sources.tree? invocation.configFile).bind Raw.ofTree?).map invocation.overrides.orElse

variable {sources : Sources} {invocation : Invocation} {raw : Raw} {root : Tree} {key : Key}
  {layers : List Layer}

theorem load_eq (h : handed? sources invocation = some raw) :
    load sources invocation = (ofRaw raw).mapError .invalid := by
  obtain ⟨below, hbelow, rfl⟩ := Option.map_eq_some_iff.1 h
  unfold load
  rw [hbelow]
  dsimp only
  cases ofRaw (invocation.overrides.orElse below) <;> rfl

theorem Sources.tree?_eq (sources : Sources) (configFile : Option String) :
    sources.tree? configFile = (sources.layers? configFile).map merged := by
  unfold tree? layers? standardFiles
  simp only [List.mapM_cons, List.mapM_nil]
  cases sources.entries? false "config/default" with
  | none => rfl
  | some defaults =>
    cases sources.entries? false "products" with
    | none => rfl
    | some locals =>
      cases configFile with
      | none => rfl
      | some name =>
        simp only [Option.toList_some, List.mapM_cons, List.mapM_nil]
        cases sources.entries? true name with
        | none => rfl
        | some named => rfl

/-! ### From the tree to the values -/

namespace Key

theorem ofTree?_eq_bind_outline? (key : Key) (value : Tree) :
    key.ofTree? value = (value.outline?).bind key.ofTree? := by
  rcases value with _ | _ | _ | _ | _ | _ | (_ | _)
  case nothing | table.nil | table.cons => cases key <;> rfl
  all_goals rfl

theorem ofTree?_nothing (key : Key) : key.ofTree? .nothing = none := by
  cases key <;> rfl

theorem Yields.unique {value : Tree} {result result' : Option key.Value}
    (h : key.Yields value result) (h' : key.Yields value result') : result = result' := by
  rcases h with ⟨rfl, rfl⟩ | ⟨v, hv, rfl⟩ <;> rcases h' with ⟨hnothing, rfl⟩ | ⟨v', hv', rfl⟩
  · rfl
  · rw [ofTree?_nothing] at hv'
    cases hv'
  · rw [hnothing, ofTree?_nothing] at hv
    cases hv
  · exact hv.symm.trans hv'

theorem Yields.eq_none_iff {value : Tree} {result : Option key.Value}
    (h : key.Yields value result) : result = none ↔ value = .nothing := by
  rcases h with ⟨rfl, rfl⟩ | ⟨v, hv, rfl⟩
  · simp
  · refine ⟨nofun, ?_⟩
    rintro rfl
    rw [ofTree?_nothing] at hv
    cases hv

/-- Where a value can be used, it does not matter what is in it if it is a table, as long as
something is. -/
theorem Yields.of_outline {value value' : Tree} {result : Option key.Value}
    (h : key.Yields value result) (houtline : value.outline? = value'.outline?)
    (hempty : value' ≠ .table []) : key.Yields value' result := by
  rcases h with ⟨rfl, rfl⟩ | ⟨v, hv, rfl⟩
  · rcases value' with _ | _ | _ | _ | _ | _ | (_ | _)
    case nothing => exact Or.inl ⟨rfl, rfl⟩
    case table.nil => exact absurd rfl hempty
    all_goals cases houtline
  · rw [ofTree?_eq_bind_outline?, houtline, ← ofTree?_eq_bind_outline?] at hv
    exact Or.inr ⟨v, hv, rfl⟩

theorem yields_of_field? {values : List (String × Tree)} {result : Option key.Value}
    (h : field? values key.name key.ofTree? = some result) :
    key.Yields ((values.lookup key.name).getD .nothing) result := by
  unfold field? at h
  split at h
  · rename_i hnone
    cases h
    rw [hnone]
    exact Or.inl ⟨rfl, rfl⟩
  · rename_i hnothing
    cases h
    rw [hnothing]
    exact Or.inl ⟨rfl, rfl⟩
  · rename_i value hvalue
    obtain ⟨v, hv, rfl⟩ := Option.map_eq_some_iff.1 h
    rw [hvalue]
    exact Or.inr ⟨v, hv, rfl⟩

end Key

theorem Raw.exists_section (h : Raw.ofTree? root = some raw) (key : Key) :
    ∃ values, sectionOf? root key.sectionName key.row = some values ∧
      field? values key.name key.ofTree? = some (key.get raw) := by
  unfold ofTree? at h
  simp only [Option.bind_eq_bind, Option.pure_def] at h
  obtain ⟨server, hserver, h⟩ := Option.bind_eq_some_iff.1 h
  obtain ⟨host, hhost, h⟩ := Option.bind_eq_some_iff.1 h
  obtain ⟨port, hport, h⟩ := Option.bind_eq_some_iff.1 h
  obtain ⟨graceful, hgraceful, h⟩ := Option.bind_eq_some_iff.1 h
  obtain ⟨timeout, htimeout, h⟩ := Option.bind_eq_some_iff.1 h
  obtain ⟨logging, hlogging, h⟩ := Option.bind_eq_some_iff.1 h
  obtain ⟨level, hlevel, h⟩ := Option.bind_eq_some_iff.1 h
  obtain ⟨json, hjson, h⟩ := Option.bind_eq_some_iff.1 h
  obtain ⟨database, hdatabase, h⟩ := Option.bind_eq_some_iff.1 h
  obtain ⟨url, hurl, h⟩ := Option.bind_eq_some_iff.1 h
  obtain ⟨connections, hconnections, h⟩ := Option.bind_eq_some_iff.1 h
  obtain ⟨cache, hcache, h⟩ := Option.bind_eq_some_iff.1 h
  obtain ⟨capacity, hcapacity, h⟩ := Option.bind_eq_some_iff.1 h
  obtain rfl := Option.some.inj h
  cases key with
  | host => exact ⟨server, hserver, hhost⟩
  | port => exact ⟨server, hserver, hport⟩
  | gracefulShutdown => exact ⟨server, hserver, hgraceful⟩
  | requestTimeout => exact ⟨server, hserver, htimeout⟩
  | level => exact ⟨logging, hlogging, hlevel⟩
  | json => exact ⟨logging, hlogging, hjson⟩
  | url => exact ⟨database, hdatabase, hurl⟩
  | maxConnections => exact ⟨database, hdatabase, hconnections⟩
  | capacity => exact ⟨cache, hcache, hcapacity⟩

/-- A key takes what stands in its place of the tree, or in its place of a list that stands where
its section should. -/
theorem Raw.yields_of_ofTree? (h : Raw.ofTree? root = some raw) (key : Key) :
    (∀ items, root.get? key.sectionName = some (.list items) →
      key.Yields (key.elementOf items) (key.get raw)) ∧
    ((∀ items, root.get? key.sectionName ≠ some (.list items)) →
      key.Yields ((root.at? key.path).getD .nothing) (key.get raw)) := by
  obtain ⟨values, hvalues, hfield⟩ := Raw.exists_section h key
  have hyields := Key.yields_of_field? hfield
  have hat : root.at? key.path =
      (root.get? key.sectionName).bind fun value => value.get? key.name := by
    refine congrArg _ (funext fun value => ?_)
    show (value.get? key.name).bind some = value.get? key.name
    cases value.get? key.name <;> rfl
  unfold sectionOf? at hvalues
  rw [hat]
  split at hvalues
  · rename_i hsection
    cases hvalues
    rw [hsection]
    exact ⟨nofun, fun _ => hyields⟩
  · rename_i hsection
    cases hvalues
    rw [hsection]
    exact ⟨nofun, fun _ => hyields⟩
  · rename_i items hsection
    cases hvalues
    rw [hsection]
    refine ⟨fun items' heq => ?_, fun hnone => absurd rfl (hnone items)⟩
    cases heq
    exact hyields
  · cases hvalues

/-! ### From the layers to the tree -/

theorem highest_listedBy_iff (key : Key) (layers : List Layer) (element : Tree) :
    Highest key.listedBy layers (some element) ↔
      ∃ items, (merged layers).get? key.sectionName = some (.list items) ∧
        key.elementOf items = element := by
  have hsection : ∀ items, (merged layers).get? key.sectionName = some (.list items) ↔
      latest? (Layer.tells [key.sectionName]) layers = some (.list items) := by
    intro items
    have houtline := Layer.outline_at?_merged key.sectionName [] layers
    have hat : (merged layers).at? [key.sectionName] = (merged layers).get? key.sectionName := by
      show ((merged layers).get? key.sectionName).bind some = _
      cases (merged layers).get? key.sectionName <;> rfl
    rw [← hat, ← Tree.bind_outline?_eq_list_iff, houtline, Tree.bind_outline?_eq_list_iff]
  simp only [hsection]
  rw [← latest?_eq_some_iff]
  unfold Key.listedBy
  rw [latest?_map]
  cases latest? (Layer.tells [key.sectionName]) layers with
  | none => simp
  | some value => cases value <;> simp

/-- **What comes of the layers.** -/
theorem yields_of_merged (h : Raw.ofTree? (merged layers) = some raw) (key : Key) :
    (∀ element, Highest key.listedBy layers (some element) →
      key.Yields element (key.get raw)) ∧
    ((∀ element, ¬ Highest key.listedBy layers (some element)) →
      key.Yields ((latest? key.toldBy layers).getD .nothing) (key.get raw)) := by
  obtain ⟨hlisted, hplaced⟩ := Raw.yields_of_ofTree? h key
  refine ⟨fun element hhighest => ?_, fun hnone => ?_⟩
  · obtain ⟨items, hsection, rfl⟩ := (highest_listedBy_iff key layers element).1 hhighest
    exact hlisted items hsection
  · have hyields := hplaced fun items hsection =>
      hnone _ ((highest_listedBy_iff key layers _).2 ⟨items, hsection, rfl⟩)
    have houtline : ∀ value? : Option Tree,
        (value?.getD .nothing).outline? = value?.bind Tree.outline? := by
      intro value?
      cases value? <;> rfl
    refine hyields.of_outline ?_ ?_
    · rw [houtline, houtline]
      exact Layer.outline_at?_merged key.sectionName [key.name] layers
    · cases htold : latest? key.toldBy layers with
      | none => exact nofun
      | some value =>
        rintro rfl
        exact latest?_ne (Layer.tells_ne_empty key.path) htold

/-- Layers that say the same about a key make the same of it. -/
theorem get_eq_of_forall₂ {raw' : Raw} {layers' : List Layer}
    (h : Raw.ofTree? (merged layers) = some raw) (h' : Raw.ofTree? (merged layers') = some raw')
    (hsame : List.Forall₂ (fun layer layer' => key.toldBy layer = key.toldBy layer' ∧
      key.listedBy layer = key.listedBy layer') layers layers') : key.get raw = key.get raw' := by
  obtain ⟨hlisted, htold⟩ := yields_of_merged h key
  obtain ⟨hlisted', htold'⟩ := yields_of_merged h' key
  have hlists := latest?_congr (hsame.imp fun _ _ hlayer => hlayer.2)
  have htells := latest?_congr (hsame.imp fun _ _ hlayer => hlayer.1)
  have hiff : ∀ element, Highest key.listedBy layers (some element) ↔
      Highest key.listedBy layers' (some element) := by
    intro element
    rw [← latest?_eq_some_iff, ← latest?_eq_some_iff, hlists]
  by_cases hlist : ∃ element, Highest key.listedBy layers (some element)
  · obtain ⟨element, hhighest⟩ := hlist
    exact (hlisted element hhighest).unique (hlisted' element ((hiff element).1 hhighest))
  · have hnone := not_exists.1 hlist
    have hyields := htold hnone
    rw [htells] at hyields
    exact hyields.unique (htold' fun element => (hiff element).not.1 (hnone element))

theorem Key.tells_nest (key other : Key) (text : String) :
    Tree.tells other.path (Tree.nest key.path (.text text)) =
      if other = key then some (.text text) else none := by
  have hpath : ∀ key other : Key, key.sectionName = other.sectionName →
      key.name = other.name → other = key := by
    intro key other
    cases key <;> cases other <;> first | exact fun _ _ => rfl | decide
  unfold path
  simp only [Tree.nest, Tree.tells, latest?_cons, latest?_nil, Option.none_or]
  split_ifs with hsection hname heq heq heq
  · rfl
  · exact absurd (hpath key other hsection hname) heq
  · exact absurd (heq ▸ rfl) hname
  · rfl
  · exact absurd (heq ▸ rfl) hsection
  · rfl

/-- The variable of a key is about that key only. -/
theorem entryTells_variable {name value : String} (h : name.toLower = key.variableName) :
    ∃ entry, Sources.entryOf? name value = some entry ∧ ∀ other : Key,
      entryTells other.path entry = if other = key then some (.text value) else none := by
  have hmark : Sources.variableMark.isPrefixOf key.variableName.toList = true := by
    cases key <;> decide
  have hpath : Tree.pathOf (String.ofList (Sources.pointed
      (key.variableName.toList.drop Sources.variableMark.length))) = key.path := by
    cases key <;> decide
  unfold Sources.entryOf?
  rw [h]
  refine ⟨_, if_pos hmark, fun other => ?_⟩
  unfold entryTells
  dsimp only
  rw [hpath]
  exact key.tells_nest other value

/-! ### From the command line to the values -/

theorem settles_of_handed {given : List (Flag × String)} {below : Raw} {overrides : Raw}
    (h : Raw.ofTree? (merged layers) = some below)
    (hset : ∀ text, (key.flag, text) ∈ given →
      ∃ value, key.ofText? text = some value ∧ key.get overrides = some value)
    (hkept : (∀ text, (key.flag, text) ∉ given) → key.get overrides = none) :
    key.Settles given layers (key.get (overrides.orElse below)) := by
  obtain ⟨hlisted, htold⟩ := yields_of_merged h key
  have hbelow : (∀ text, (key.flag, text) ∉ given) →
      key.get (overrides.orElse below) = key.get below := by
    intro hnone
    rw [Key.get_orElse, hkept hnone, Option.none_or]
  constructor
  · intro text hmem
    obtain ⟨value, hvalue, hget⟩ := hset text hmem
    refine ⟨value, hvalue, ?_⟩
    rw [Key.get_orElse, hget, Option.some_or]
  · intro hnone element hhighest
    rw [hbelow hnone]
    exact hlisted element hhighest
  · intro hnone hnolist value hhighest
    have hyields := htold hnolist
    rw [latest?_eq_some_iff.2 hhighest] at hyields
    rw [hbelow hnone]
    exact hyields
  · intro hnone hnolist
    rw [hbelow hnone, (htold hnolist).eq_none_iff, ← latest?_eq_none_iff, ← latest?_eq_some_iff]
    cases latest? key.toldBy layers <;> simp

theorem exists_layers (h : handed? sources invocation = some raw) :
    ∃ layers below, sources.layers? invocation.configFile = some layers ∧
      Raw.ofTree? (merged layers) = some below ∧ raw = invocation.overrides.orElse below := by
  obtain ⟨below, hbelow, rfl⟩ := Option.map_eq_some_iff.1 h
  rw [Sources.tree?_eq] at hbelow
  obtain ⟨tree, htree, hraw⟩ := Option.bind_eq_some_iff.1 hbelow
  obtain ⟨layers, hlayers, rfl⟩ := Option.map_eq_some_iff.1 htree
  exact ⟨layers, below, hlayers, hraw, rfl⟩

/-- **Which source decides about a setting.** When the sources can be read, the values that are
handed on are settled key by key: by the command line, which has flags for all keys behind `serve`,
only for the URL behind `migrate` and for none without a command, and else by the highest layer that
says anything about the key. Nothing else bears on a key: where another command line and other
sources say the same about it, it has the same value, whatever they say about other keys. -/
theorem precedence {sources : Sources} {arguments : List String} {invocation : Invocation}
    {raw : Raw}
    (hread : Invocation.read sources arguments = .ok invocation)
    (hhanded : handed? sources invocation = some raw) :
    load sources invocation = (ofRaw raw).mapError .invalid ∧
      (∀ (key : Key) (name value : String), name.toLower = key.variableName →
        ∃ entry, Sources.entryOf? name value = some entry ∧ ∀ other : Key,
          entryTells other.path entry = if other = key then some (.text value) else none) ∧
      (∀ key : Key, key.flag ∈ Flag.known (some .serve)) ∧
      ∃ layers given, sources.layers? invocation.configFile = some layers ∧
        CommandLine.Gives invocation.command arguments given ∧
        (invocation.command = none → given = []) ∧
        (invocation.command = some .migrate → ∀ entry ∈ given, entry.1 = Key.url.flag) ∧
        ∀ key : Key, key.Settles given layers (key.get raw) ∧
          ∀ sources' invocation' raw' layers', handed? sources' invocation' = some raw' →
            sources'.layers? invocation'.configFile = some layers' →
            key.get invocation'.overrides = key.get invocation.overrides →
            List.Forall₂ (fun layer layer' => key.toldBy layer = key.toldBy layer' ∧
              key.listedBy layer = key.listedBy layer') layers layers' →
            key.get raw' = key.get raw := by
  have hloaded := load_eq hhanded
  obtain ⟨layers, below, hlayers, hbelow, rfl⟩ := exists_layers hhanded
  obtain ⟨given, hgives, hset⟩ := Invocation.exists_gives hread
  have hserve : ∀ key : Key, key.flag ∈ Flag.known (some .serve) := by
    intro key
    cases key <;> decide
  refine ⟨hloaded, fun _ _ _ => entryTells_variable, hserve, layers, given, hlayers, hgives,
    fun hnone => ?_, fun hmigrate entry hentry => ?_, fun key => ⟨?_, ?_⟩⟩
  · rw [hnone] at hgives
    cases hgives
    rfl
  · rw [hmigrate] at hgives
    cases hgives with
    | behind _ hassigns _ => exact List.mem_singleton.1 (hassigns.known entry hentry)
  · exact settles_of_handed hbelow (hset key).1 (hset key).2
  · intro sources' invocation' raw' layers' hhanded' hlayers' hoverrides hsame
    obtain ⟨layers'', below', hlayers'', hbelow', rfl⟩ := exists_layers hhanded'
    obtain rfl := Option.some.inj (hlayers'.symm.trans hlayers'')
    rw [Key.get_orElse, Key.get_orElse, hoverrides, get_eq_of_forall₂ hbelow hbelow' hsame]

/-- A flag over the environment over a file. -/
theorem precedence_port :
    let file := "\x7b\"server\":\x7b\"host\":\"0.0.0.0\",\"port\":3000\x7d\x7d"
    let sources : Sources :=
      { files := [("config/default.json", file)]
        environment := [("PRODUCTS__SERVER__PORT", "7000"), ("PRODUCTS__CACHE__CAPACITY", "32")] }
    let invocation : Invocation := { command := some .serve, overrides := { port := some 9001 } }
    let raw : Raw := { host := some "0.0.0.0", port := some 9001, capacity := some 32 }
    Invocation.read sources ["serve", "--server-port", "9001"] = .ok invocation ∧
      handed? sources invocation = some raw ∧
      load sources invocation = (ofRaw raw).mapError .invalid ∧
      ∃ layers given, sources.layers? none = some layers ∧
        Key.port.Settles given layers (some 9001) ∧ Key.host.Settles given layers (some "0.0.0.0") ∧
          Key.capacity.Settles given layers (some 32) ∧ Key.url.Settles given layers none := by
  intro file sources invocation raw
  have hread : Invocation.read sources ["serve", "--server-port", "9001"] = .ok invocation := by
    decide +kernel
  have hhanded : handed? sources invocation = some raw := by decide +kernel
  obtain ⟨hload, -, -, layers, given, hlayers, -, -, -, hkeys⟩ := precedence hread hhanded
  exact ⟨hread, hhanded, hload, layers, given, hlayers, (hkeys .port).1, (hkeys .host).1,
    (hkeys .capacity).1, (hkeys .url).1⟩

/-- What a layer defines may be lost without another layer giving a value for it: to a layer that
says that there is nothing, and, where a list stands in the place of the section, to a layer that
is about another key. -/
theorem port_lost :
    let port (sources : Sources) : Option (Option UInt16) :=
      (Invocation.read sources ["--config-file", "c.json"]).toOption.bind fun invocation =>
        (handed? sources invocation).map fun raw => raw.port
    let overNull : Sources :=
      { files := [("config/default.json", "\x7b\"server\":\x7b\"port\":3000\x7d\x7d"),
          ("c.json", "\x7b\"server\":\x7b\"port\":null\x7d\x7d")] }
    let list := "\x7b\"server\":[\"0.0.0.0\",3000]\x7d"
    let host := "\x7b\"server\":\x7b\"host\":\"0.0.0.0\"\x7d\x7d"
    let overList (text : String) : Sources :=
      { files := [("config/default.json", list), ("c.json", text)] }
    (∃ layers layer, overNull.layers? (some "c.json") = some layers ∧ layer ∈ layers ∧
        (Key.port.toldBy layer).bind Key.port.ofTree? = some 3000) ∧
      port overNull = some none ∧
      port (overList "\x7b\x7d") = some (some 3000) ∧ port (overList host) = some none := by
  intro port overNull list host overList
  have hany : (overNull.layers? (some "c.json")).any (fun layers => layers.any fun layer =>
      decide ((Key.port.toldBy layer).bind Key.port.ofTree? = some 3000)) = true := by
    decide +kernel
  refine ⟨?_, by decide +kernel, by decide +kernel, by decide +kernel⟩
  cases hlayers : overNull.layers? (some "c.json") with
  | none =>
    rw [hlayers] at hany
    cases hany
  | some layers =>
    rw [hlayers] at hany
    obtain ⟨layer, hmem, htold⟩ := List.any_eq_true.1 hany
    exact ⟨layers, layer, rfl, hmem, of_decide_eq_true htold⟩

end Catalogue.Settings
