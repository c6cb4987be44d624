/-
`main` up to `Server::run`: from the arguments to a server that listens, or to the end
of the process; and that a config written for a server makes `main` start it.
-/
import SwanServer.ConfigPort
import SwanServer.ConfigRoots
import SwanServer.ConfigSerialisation

namespace SwanServer

/-- What `main` comes to. -/
inductive Launch where
  | exits (status : Nat)
  | undefined
  | listens (port : Nat) (routes : FactoryRoutes RequestHandlerFactory)

/-- An exception ends in the handler of `main`, which logs it and goes on to `return 0`. -/
def Launch.ofFault : Fault → Launch
  | .undefinedBehaviour => .undefined
  | _ => .exits 0

theorem Launch.ofFault_ne_listens (fault : Fault) (port : Nat)
    (routes : FactoryRoutes RequestHandlerFactory) : ofFault fault ≠ .listens port routes := by
  cases fault <;> rintro ⟨⟩

/-- An `int` as the argument `short port`. -/
def toShort (n : Int) : Int := Int.bmod n 65536

/-- A `short` as the argument `unsigned short port_num` of an endpoint. -/
def toUnsignedShort (n : Int) : Nat := (n % 65536).toNat

/-- What `main` meets outside the process: which paths are relative, the texts of the
files that open, and the ports that the acceptor can be bound to. -/
structure Surroundings where
  isRelative : Str → Bool
  text : Str → Option Str
  binds : Nat → Bool

namespace Surroundings

variable (surroundings : Surroundings)

/-- `main` from the config on, with the constructor of `Server`. -/
def launch (config : NginxConfig) : Launch :=
  if config.getPort < 0 then .exits 1
  else
    match config.extractFilesystemMap OrderedMap.empty with
    | .error fault => .ofFault fault
    | .ok filesystemMap =>
        let port := toUnsignedShort (toShort config.getPort)
        if surroundings.binds port then .listens port (createFactoryMap filesystemMap)
        else .exits 0

/-- `main`. -/
def main (argv : List Str) : Launch :=
  match argv with
  | [_, fileName] =>
      match surroundings.text fileName with
      | none => .exits 1
      | some text =>
          match parseFile surroundings.isRelative text with
          | .error fault => .ofFault fault
          | .ok (false, _) => .exits 1
          | .ok (true, config) => surroundings.launch config
  | _ => .exits 1

end Surroundings

/-- A port of the config gets through both conversions. -/
theorem toUnsignedShort_toShort {port : Int} (hlow : 0 ≤ port) (hhigh : port ≤ 65535) :
    (toUnsignedShort (toShort port) : Int) = port := by
  rw [toUnsignedShort, toShort, Int.bmod_def]
  split <;> omega

theorem NginxConfig.getPort_le (config : NginxConfig) : config.getPort ≤ 65535 := by
  rw [getPort_eq_elim]
  cases hargument : portArgument? config.blocks with
  | none => simp
  | some value =>
      have hport := isPort_of_portArgument? hargument
      rw [isPort, Bool.and_eq_true, decide_eq_true_eq] at hport
      exact hport.2.2

namespace Surroundings

variable {surroundings : Surroundings} {port : Nat}
  {routes : FactoryRoutes RequestHandlerFactory}

theorem exists_of_launch_eq_listens {config : NginxConfig}
    (hlaunch : surroundings.launch config = .listens port routes) :
    ∃ filesystemMap, config.getPort = port ∧
      config.extractFilesystemMap OrderedMap.empty = .ok filesystemMap ∧
      routes = createFactoryMap filesystemMap := by
  rw [launch] at hlaunch
  split at hlaunch
  · cases hlaunch
  · next hport =>
      have hconverted :=
        toUnsignedShort_toShort (Int.not_lt.mp hport) config.getPort_le
      cases hextract : config.extractFilesystemMap OrderedMap.empty with
      | error fault =>
          rw [hextract] at hlaunch
          exact absurd hlaunch (Launch.ofFault_ne_listens fault port routes)
      | ok filesystemMap =>
          simp only [hextract] at hlaunch
          split at hlaunch
          · cases hlaunch
            exact ⟨filesystemMap, hconverted.symm, rfl, rfl⟩
          · cases hlaunch

/-- A server listens on the port of its config, with the routes of its config. -/
theorem exists_of_main_eq_listens {argv : List Str}
    (hmain : surroundings.main argv = .listens port routes) :
    ∃ text config filesystemMap,
      parseFile surroundings.isRelative text = .ok (true, config) ∧ config.getPort = port ∧
      config.extractFilesystemMap OrderedMap.empty = .ok filesystemMap ∧
      routes = createFactoryMap filesystemMap := by
  rcases argv with _ | ⟨program, _ | ⟨fileName, _ | ⟨other, rest⟩⟩⟩
  · cases hmain
  · cases hmain
  · rw [main] at hmain
    cases htext : surroundings.text fileName with
    | none =>
        rw [htext] at hmain
        cases hmain
    | some text =>
        simp only [htext] at hmain
        cases hparse : parseFile surroundings.isRelative text with
        | error fault =>
            rw [hparse] at hmain
            exact absurd hmain (Launch.ofFault_ne_listens fault port routes)
        | ok result =>
            rcases result with ⟨accepted, config⟩
            rw [hparse] at hmain
            cases accepted
            · cases hmain
            · obtain ⟨filesystemMap, hport, hextract, hroutes⟩ :=
                exists_of_launch_eq_listens hmain
              exact ⟨text, config, filesystemMap, hparse, hport, hextract, hroutes⟩
  · cases hmain

end Surroundings

/-- A location of a server: its kind, the path in its statement and its root. -/
structure Location where
  kind : LocationKind
  path : Str
  root : Str

/-- What an operator wants: a port, and locations in the order in which they count. -/
structure Deployment where
  port : Nat
  locations : List Location

section Words

theorem isBareWord_of_isDigits {token : Str} (htoken : IsDigits token) : IsBareWord token := by
  have hchars : ∀ c : Char, c.isDigit = true → isBareStart c = true ∧ isDelimiter c = false := by
    intro c hc
    have hne : ∀ other : Char, other.isDigit = false → c ≠ other := by
      rintro _ hother rfl
      rw [hc] at hother
      contradiction
    simp [isBareStart, isDelimiter, hne]
  obtain ⟨first, rest, rfl⟩ := List.exists_cons_of_ne_nil htoken.1
  rw [IsDigits, List.forall_mem_cons] at htoken
  exact ⟨first, rest, rfl, (hchars first htoken.2.1).1,
    fun c hc => (hchars c (htoken.2.2 c hc)).2⟩

theorem isBareWord_of_all {first : Char} {rest : Str} (hfirst : isBareStart first = true)
    (hrest : rest.all (fun c => !isDelimiter c) = true) : IsBareWord (first :: rest) :=
  ⟨first, rest, rfl, hfirst, by simpa using hrest⟩

theorem printableTokens_of_isBareWord {tokens : List Str} (hne : tokens ≠ [])
    (htokens : ∀ token ∈ tokens, IsBareWord token) : PrintableTokens tokens :=
  ⟨hne, fun token htoken => .inl (htokens token htoken)⟩

theorem NginxConfig.printable_of_forall {statements : NginxConfig}
    (hstatements : ∀ statement ∈ statements, statement.Printable) :
    NginxConfig.Printable statements := by
  induction statements with
  | nil => trivial
  | cons statement rest ih =>
      rw [List.forall_mem_cons] at hstatements
      exact ⟨hstatements.1, ih hstatements.2⟩

end Words

namespace Location

variable (location : Location)

/-- The prefix of the targets that the location serves. -/
def key : Str := handleTrailingSlashes location.path

/-- Paths that need no quotes, and a root that is not absolute. -/
structure Valid (isRelative : Str → Bool) : Prop where
  path : IsBareWord location.path
  root : IsBareWord location.root
  relative : isRelative location.root = true

/-- The block of a location, as the documentation has it. -/
def statement : NginxConfigStatement :=
  .mk ["location".toList, location.path, location.kind.handlerType]
    (some [.mk [location.kind.directive, location.root] none])

theorem provides?_statement (handlerType key : Str) :
    location.statement.provides? handlerType key =
      if location.kind.handlerType = handlerType ∧ location.key = key then some location.root
      else none := by
  rw [NginxConfigStatement.provides?]
  refine if_congr ?_ rfl rfl
  rw [NginxConfigStatement.HasKey]
  simp [statement, NginxConfigStatement.tokens, Location.key]

theorem printable_statement {isRelative : Str → Bool} (hvalid : location.Valid isRelative) :
    location.statement.Printable := by
  have htype : IsBareWord location.kind.handlerType := by
    cases location.kind <;> exact isBareWord_of_all rfl rfl
  have hdirective : IsBareWord location.kind.directive := by
    cases location.kind <;> exact isBareWord_of_all rfl rfl
  have hline : PrintableTokens [location.kind.directive, location.root] :=
    printableTokens_of_isBareWord (by simp) (by simpa using ⟨hdirective, hvalid.root⟩)
  refine ⟨printableTokens_of_isBareWord (by simp) ?_, hline, trivial⟩
  exact List.forall_mem_cons.mpr ⟨isBareWord_of_all rfl rfl, by simpa using ⟨hvalid.path, htype⟩⟩

end Location

namespace Deployment

variable (deployment : Deployment)

/-- The config of the server. -/
def config : NginxConfig :=
  [.mk ["server".toList]
    (some (.mk ["listen".toList, Nat.toDigits 10 deployment.port] none ::
      deployment.locations.map Location.statement))]

/-- The text of its config file. -/
def text : Str := NginxConfig.toString 0 deployment.config

structure Valid (isRelative : Str → Bool) : Prop where
  port : deployment.port ≤ 65535
  locations : ∀ location ∈ deployment.locations, location.Valid isRelative

/-- The root of the first location of a kind that serves a key. -/
def root? (kind : LocationKind) (key : Str) : Option Str :=
  deployment.locations.findSome? fun location =>
    if location.kind = kind ∧ location.key = key then some location.root else none

theorem locations_config :
    deployment.config.locations = deployment.locations.map Location.statement := by
  have hstarts : ∀ statement ∈ deployment.locations.map Location.statement,
      decide (statement.tokens.head? = some "location".toList) = true := by
    intro statement hstatement
    obtain ⟨location, -, rfl⟩ := List.mem_map.mp hstatement
    rfl
  rw [NginxConfig.locations]
  change NginxConfigStatement.startingWith _ (_ :: deployment.locations.map _) ++ [] = _
  rw [List.append_nil, NginxConfigStatement.startingWith, List.filter_cons,
    if_neg (by simp [NginxConfigStatement.tokens])]
  exact List.filter_eq_self.mpr hstarts

theorem paths_config :
    deployment.config.paths = deployment.locations.map fun location => some location.root := by
  rw [NginxConfig.paths, locations_config, List.flatMap_map]
  exact List.flatMap_pure_eq_map _ _

theorem firstArgument?_config (kind : LocationKind) (key : Str) :
    deployment.config.firstArgument? kind.handlerType key = deployment.root? kind key := by
  have hkinds : ∀ other : LocationKind, other.handlerType = kind.handlerType ↔ other = kind := by
    cases kind <;> rintro ⟨⟩ <;> decide
  rw [NginxConfig.firstArgument?, locations_config, List.findSome?_map, root?]
  congr 1
  funext location
  rw [Function.comp_apply, Location.provides?_statement]
  exact if_congr (and_congr (hkinds location.kind) Iff.rfl) rfl rfl

theorem getPort_config (hport : deployment.port ≤ 65535) :
    deployment.config.getPort = deployment.port := by
  have hdigits := isDigits_toDigits deployment.port
  have hvalue : atoi (Nat.toDigits 10 deployment.port) = deployment.port := by
    rw [atoi, strtol_of_isDigits hdigits, decimal_toDigits, min_eq_right, wrapInt_of_mem]
    · simp only [intMin]
      omega
    · simp only [intMax]
      omega
    · simp only [longMax]
      omega
  have hlisten : listenPort (Nat.toDigits 10 deployment.port) = deployment.port := by
    rw [listenPort_eq, isPort, hdigits.cStr, (isDigits_iff _).mpr hdigits, hvalue]
    exact if_pos (by simpa using hport)
  have hchild : NginxConfigStatement.childPort (.mk ["server".toList] (some
      (.mk ["listen".toList, Nat.toDigits 10 deployment.port] none ::
        deployment.locations.map Location.statement))) = deployment.port := by
    rw [NginxConfigStatement.childPort]
    exact hlisten
  change NginxConfig.childrenPort deployment.config = _
  rw [config, NginxConfig.childrenPort, hchild, if_pos (by omega)]

section Valid

variable {deployment} {isRelative : Str → Bool} (hvalid : deployment.Valid isRelative)

include hvalid

theorem printable_config : NginxConfig.Printable deployment.config := by
  have hport := isBareWord_of_isDigits (isDigits_toDigits deployment.port)
  have hserver : PrintableTokens ["server".toList] := printableTokens_of_isBareWord (by simp)
    (List.forall_mem_singleton.mpr (isBareWord_of_all rfl rfl))
  refine ⟨⟨hserver, ?_⟩, trivial⟩
  refine NginxConfig.printable_of_forall (List.forall_mem_cons.mpr ⟨?_, ?_⟩)
  · exact printableTokens_of_isBareWord (by simp) (List.forall_mem_cons.mpr
      ⟨isBareWord_of_all rfl rfl, List.forall_mem_singleton.mpr hport⟩)
  · intro statement hstatement
    obtain ⟨location, hlocation, rfl⟩ := List.mem_map.mp hstatement
    exact location.printable_statement (hvalid.locations location hlocation)

theorem parseFile_text :
    parseFile isRelative deployment.text = .ok (true, deployment.config) := by
  have hprintable := printable_config hvalid
  have hparse : parse [] deployment.text = .ok (true, deployment.config) :=
    parse_of_generates (parseTokens_toString_eq 0 hprintable)
      (NginxConfig.generates_printedTokens hprintable)
  have hworded := ((NginxConfig.printable_iff _).mp hprintable).1
  rw [parseFile_eq_true_iff isRelative hparse]
  refine ⟨(NginxConfig.validateRelativePaths_eq_true_iff isRelative hworded).mpr ?_, rfl, rfl⟩
  rw [paths_config]
  intro entry hentry
  obtain ⟨location, hlocation, rfl⟩ := List.mem_map.mp hentry
  exact ⟨location.root, rfl, (hvalid.locations location hlocation).relative⟩

theorem documented_config : deployment.config.Documented where
  toHeaded := ((NginxConfig.printable_iff _).mp (printable_config hvalid)).1.headed
  location := by
    rw [locations_config]
    intro statement hstatement
    obtain ⟨location, -, rfl⟩ := List.mem_map.mp hstatement
    exact ⟨by simp [Location.statement, NginxConfigStatement.tokens], _, rfl, by simp,
      by simp [NginxConfigStatement.tokens]⟩

end Valid

end Deployment

namespace Surroundings

variable {surroundings : Surroundings} {deployment : Deployment}

/-- The config file that was written for a deployment makes `main` listen on its port, and
serve below each prefix the built-in location, or the first static location, or the first
API location there. -/
theorem main_text (hvalid : deployment.Valid surroundings.isRelative) {program fileName : Str}
    (htext : surroundings.text fileName = some deployment.text)
    (hbinds : surroundings.binds deployment.port = true) :
    ∃ routes, surroundings.main [program, fileName] = .listens deployment.port routes ∧
      ∀ key, routes.find? key =
        ((OrderedMap.firstValue? key builtInRoutes).or
          ((deployment.root? .static key).map fun root => some (.static key root))).or
          ((deployment.root? .api key).map fun root => some (.api key root)) := by
  have hdocumented := deployment.documented_config hvalid
  obtain ⟨filesystemMap, hextract⟩ :=
    hdocumented.exists_extractFilesystemMap OrderedMap.empty
  have hport := deployment.getPort_config hvalid.port
  have hlookup : ∀ (kind : LocationKind) (key : Str),
      (filesystemMap.at kind.handlerType).find? key = deployment.root? kind key := by
    intro kind key
    rw [NginxConfig.find?_extractFilesystemMap_eq_or hdocumented.toHeaded hextract,
      deployment.firstArgument?_config]
    rfl
  refine ⟨createFactoryMap filesystemMap, ?_, ?_⟩
  · have hconverted : toUnsignedShort (toShort deployment.port) = deployment.port :=
      Int.ofNat.inj (toUnsignedShort_toShort (Int.natCast_nonneg _) (by exact_mod_cast hvalid.port))
    simp only [main, htext, deployment.parseFile_text hvalid, launch, hport, hextract, hconverted,
      hbinds]
    rfl
  · intro key
    rw [find?_createFactoryMap, hlookup, hlookup]

end Surroundings

namespace ServerMainWitness

/-- A static and an API location. -/
def deployment : Deployment :=
  ⟨8080, [⟨.static, "/files".toList, "./static".toList⟩,
    ⟨.api, "/api".toList, "../mnt".toList⟩]⟩

theorem valid_deployment : deployment.Valid ConsumerSafetyWitness.isRelative := by
  refine ⟨by decide, List.forall_mem_cons.mpr ⟨?_, List.forall_mem_singleton.mpr ?_⟩⟩
  all_goals exact ⟨isBareWord_of_all rfl rfl, isBareWord_of_all rfl rfl, rfl⟩

/-- Its config file is there, and its port is free. -/
def surroundings : Surroundings where
  isRelative := ConsumerSafetyWitness.isRelative
  text _ := some deployment.text
  binds port := port = 8080

theorem main_deployment :
    ∃ routes, surroundings.main ["server".toList, "config".toList] =
        .listens deployment.port routes ∧
      ∀ key, routes.find? key =
        ((OrderedMap.firstValue? key builtInRoutes).or
          ((deployment.root? .static key).map fun root => some (.static key root))).or
          ((deployment.root? .api key).map fun root => some (.api key root)) :=
  Surroundings.main_text valid_deployment rfl rfl

end ServerMainWitness

end SwanServer
