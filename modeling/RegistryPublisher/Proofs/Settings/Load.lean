import RegistryPublisher.Proofs.Settings.Variables
import RegistryPublisher.Proofs.Toml.Sorted

/-!
# Loaded settings

- `FileLayer`: there is nothing at a path, or a TOML document; `UserLayer`: so it is in the home directory, if there is
  one;
- `Sources`: the files and the environment of a world, where they say nothing about settings but texts;
- `load_layered`: each setting comes from the environment, the project's file or the user's file, whichever is the first
  to have it, and nothing else in them matters.
-/

namespace RegistryPublisher

/-! ## Paths -/

namespace Path

theorem isAbsolute_append {p : String} (hp : p ≠ "") (q : String) : isAbsolute (p ++ q) = isAbsolute p := by
  rw [isAbsolute, isAbsolute, String.toList_append]
  cases h : p.toList with
  | nil => exact absurd (String.toList_eq_nil_iff.1 h) hp
  | cons c cs => rfl

/-- A path below a directory that is itself given by a path. -/
theorem join_join {p q : String} (hp : isAbsolute p = false) (hq : isAbsolute q = false) (hne : p ≠ "")
    (hend : p.toList.getLast? ≠ some '/') (d : String) : join (join d p) q = join d (p ++ "/" ++ q) := by
  have hpq : isAbsolute (p ++ "/" ++ q) = false := by rw [String.append_assoc, isAbsolute_append hne, hp]
  have hbelow : ∀ b : String, join (b ++ p) q = b ++ (p ++ "/" ++ q) := by
    intro b
    have hlast : (b ++ p).toList.getLast? ≠ some '/' := by
      have hp : p.toList ≠ [] := fun h => hne (String.toList_eq_nil_iff.1 h)
      rw [String.toList_append, List.getLast?_append, List.getLast?_eq_some_getLast hp, Option.some_or]
      rwa [List.getLast?_eq_some_getLast hp] at hend
    have hb : (b ++ p).isEmpty = false := by
      rw [Bool.eq_false_iff]
      intro h
      exact hne (String.append_eq_empty_iff.1 (String.isEmpty_iff.1 h)).2
    rw [join, hq, hb, Bool.or_false, if_neg Bool.false_ne_true, if_neg hlast]
    simp only [String.append_assoc]
  cases hd : d.isEmpty with
  | true =>
    have he : join d p = "" ++ p := by rw [join, hd, Bool.or_true, if_pos rfl, String.empty_append]
    rw [he, hbelow, join, hd, Bool.or_true, if_pos rfl, String.empty_append]
  | false =>
    have hjoin : ∀ path, isAbsolute path = false →
        join d path = if d.toList.getLast? = some '/' then d ++ path else d ++ "/" ++ path := by
      intro path h
      rw [join, h, hd, Bool.or_false, if_neg Bool.false_ne_true]
    rw [hjoin p hp, hjoin _ hpq]
    split
    · exact hbelow d
    · exact hbelow (d ++ "/")

/-- A directory is the first of its ancestors, written from the root. -/
theorem ancestors_eq (directory : String) :
    ∃ above, ancestors directory = ofNames ((names directory).filter (· ≠ "")) :: above := by
  rw [ancestors, beginnings, List.range_succ, List.map_append, List.reverse_append, List.map_singleton,
    List.take_length]
  exact ⟨_, rfl⟩

end Path

namespace Settings

/-! ## Files -/

/-- The path of a file from the root. -/
def fromRoot (w : World) (path : String) : String :=
  Path.join (Path.ofNames ((Path.names w.directory).filter (· ≠ ""))) path

/-- What the file of a path puts over the settings: nothing when there is nothing at the path, else the TOML document that
can be read there, from the current directory as from the root. -/
inductive FileLayer (w : World) (path : String) : Option Value → Prop
  | absent (h : w.hasPath path = false) : FileLayer w path none
  | regular {content : Bytes} {v : Value} (hfile : w.stat path = .ok .file) (hread : w.read path = .ok content)
      (hrootFile : w.stat (fromRoot w path) = .ok .file) (hroot : w.read (fromRoot w path) = .ok content)
      (hdecode : Toml.decode? content = some v) : FileLayer w path (some v)

/-- The same of the user's file; without a home directory there is none. -/
inductive UserLayer (w : World) : Option Value → Prop
  | homeless (h : w.home? = none) : UserLayer w none
  | home {home : String} {layer : Option Value} (h : w.home? = some home)
      (hfile : FileLayer w (Path.join home ".config/mcp-publisher/config.toml") layer) : UserLayer w layer

theorem FileLayer.isLayer {w : World} {path : String} {v : Value} (h : FileLayer w path (some v)) : v.IsLayer := by
  cases h with
  | regular _ _ _ _ hdecode => exact Toml.decode?_isLayer hdecode

theorem UserLayer.isLayer {w : World} {v : Value} (h : UserLayer w (some v)) : v.IsLayer := by
  cases h with
  | home _ hfile => exact hfile.isLayer

theorem locate_regular {w : World} {path : String} {content : Bytes} (hfile : w.stat path = .ok .file)
    (hread : w.read path = .ok content) (hrootFile : w.stat (fromRoot w path) = .ok .file)
    (hroot : w.read (fromRoot w path) = .ok content) :
    ∃ found, locate w path = some found ∧ w.read found = .ok content := by
  have hpath : w.hasPath path = true := by rw [World.hasPath, hfile]; rfl
  rw [locate, if_pos hpath]
  split
  · have hfile' : w.hasFile path = true := by rw [World.hasFile, hfile]
    exact ⟨path, if_pos hfile', hread⟩
  · obtain ⟨above, habove⟩ := Path.ancestors_eq w.directory
    have hfile' : w.hasFile (fromRoot w path) = true := by rw [World.hasFile, hrootFile]
    refine ⟨fromRoot w path, ?_, hroot⟩
    rw [World.find?, habove, List.map_cons]
    exact List.find?_cons_of_pos hfile'

/-- The layer of a file is put over a value; a file that is not there changes nothing. -/
theorem addFile_eq {w : World} {path : String} {layer : Option Value} (h : FileLayer w path layer) (v : Value) :
    addFile w path v = .ok (layer.elim v v.merge) := by
  cases h with
  | absent h => rw [addFile, locate, h]; rfl
  | regular hfile hread hrootFile hroot hdecode =>
    obtain ⟨found, hfound, hcontent⟩ := locate_regular hfile hread hrootFile hroot
    rw [addFile, hfound]
    simp only [hcontent, hdecode, Option.elim_some]

theorem userFile?_eq {w : World} (h : w.environment.get? "XDG_CONFIG_HOME" = none) :
    userFile? w = w.home?.map (Path.join · ".config/mcp-publisher/config.toml") := by
  rw [userFile?, configHome?, h]
  change (w.home?.map (Path.join · ".config")).map _ = _
  rw [Option.map_map]
  congr 1
  funext home
  dsimp only [Function.comp_apply]
  rw [Path.join_join (by decide) (by decide) (by decide) (by decide),
    Path.join_join (by decide) (by decide) (by decide) (by decide)]
  rfl

theorem addUserFile_eq {w : World} {layer : Option Value} (henv : w.environment.get? "XDG_CONFIG_HOME" = none)
    (h : UserLayer w layer) (v : Value) : addUserFile w v = .ok (layer.elim v v.merge) := by
  rw [addUserFile, userFile?_eq henv]
  cases h with
  | homeless h => rw [h]; rfl
  | home h hfile => rw [h]; exact addFile_eq hfile v

/-- The texts of a layer come first, then those that were there. -/
theorem elim_merge_fits {layer : Option Value} (hlayer : ∀ l, layer = some l → l.IsLayer)
    (hfits : ∀ l, layer = some l → l.Fits) {v : Value} (hv : v.Fits) :
    (layer.elim v v.merge).Fits ∧
      ∀ k, (layer.elim v v.merge).textAt k = (layer.bind (Value.textAt k)).or (v.textAt k) := by
  cases layer with
  | none => exact ⟨hv, fun _ => rfl⟩
  | some l => exact ⟨hv.merge (hfits l rfl) (hlayer l rfl), Value.textAt_merge v (hfits l rfl) (hlayer l rfl)⟩

/-! ## Layers -/

theorem builtIn_fits : builtIn.Fits ∧ ∀ k, builtIn.textAt k = some "" := by
  refine ⟨⟨⟨_, rfl⟩, ?tables, ?texts⟩, ?empty⟩
  case tables => rintro (_ | _ | _) x hx <;> cases hx <;> exact ⟨_, rfl⟩
  case texts => rintro (_ | _ | _) x hx <;> cases hx <;> exact ⟨_, rfl⟩
  case empty => rintro (_ | _ | _) <;> rfl

/-- The sources of settings: the user's file in the home directory, if there is one, the project's file in the current
directory, and the environment. Each gives settings texts or nothing. -/
structure Sources (w : World) (user project : Option Value) : Prop where
  userFile : UserLayer w user
  projectFile : FileLayer w ".mcp-publisher.toml" project
  userFits : ∀ l, user = some l → l.Fits
  projectFits : ∀ l, project = some l → l.Fits
  environment : Variables.Plain w.environment
  noConfigHome : w.environment.get? "XDG_CONFIG_HOME" = none

/-- The text that the sources of a world give a setting: the first of environment, project and user that has one. -/
def chosen? (w : World) (user project : Option Value) (k : Setting) : Option String :=
  ((Variables.named? w.environment k).or (project.bind (Value.textAt k))).or (user.bind (Value.textAt k))

theorem layers_fits {w : World} {user project : Option Value} (h : Sources w user project) :
    ∃ v, layers w = .ok v ∧ v.Fits ∧ ∀ k, v.textAt k = (chosen? w user project k).or (some "") := by
  obtain ⟨hbuiltIn, hempty⟩ := builtIn_fits
  obtain ⟨hfits₁, htext₁⟩ := elim_merge_fits (fun l hl => (hl ▸ h.userFile).isLayer) h.userFits hbuiltIn
  obtain ⟨hfits₂, htext₂⟩ := elim_merge_fits (fun l hl => (hl ▸ h.projectFile).isLayer) h.projectFits hfits₁
  have henv := Variables.layer_fits h.environment
  have hlayer := Variables.layer_isLayer w.environment
  refine ⟨_, ?_, hfits₂.merge henv hlayer, fun k => ?_⟩
  · rw [layers, addUserFile_eq h.noConfigHome h.userFile]
    change (addFile w ".mcp-publisher.toml" _ >>= _) = _
    rw [addFile_eq h.projectFile]
    rfl
  · rw [Value.textAt_merge _ henv hlayer, Variables.layer_textAt h.environment, htext₂, htext₁, hempty, chosen?,
      Option.or_assoc, Option.or_assoc]

theorem load_fits {w : World} {user project : Option Value} (h : Sources w user project) :
    ∃ s, load w = .ok s ∧ ∀ k, s.get k = (chosen? w user project k).getD "" := by
  obtain ⟨v, hv, hfits, htext⟩ := layers_fits h
  obtain ⟨s, hs, hget⟩ := ofValue_fits hfits
  refine ⟨s, by rw [load, hv]; exact hs, fun k => ?_⟩
  rw [hget, htext]
  cases chosen? w user project k <;> rfl

/-! ## What does not matter -/

theorem ext_get {s s' : Settings} (h : ∀ k, s'.get k = s.get k) : s' = s := by
  obtain ⟨url, token, file⟩ := s
  obtain ⟨url', token', file'⟩ := s'
  cases h .registryUrl
  cases h .token
  cases h .tokenFile
  rfl

/-- The world with one more variable, or another value of one. -/
def withVariable (w : World) (name s : String) : World := { w with environment := w.environment.set name s }

/-- A variable whose name goes on with one word, which is no table of settings, may be set to anything. -/
theorem load_withVariable (w : World) {rest : String}
    (hrest : ∀ c ∈ rest.toList, c ≠ '_' ∧ c ≠ '.' ∧ Text.isBlank c = false)
    (hne : String.ofList (rest.toList.map Char.toLower) ∉ ["registry", "auth"]) (s : String) :
    load (withVariable w (Variables.nameStart ++ rest) s) = load w := by
  have hhead : (Variables.nameStart ++ rest).toList.head? = some 'M' := by rw [String.toList_append]; rfl
  have hget : ∀ name : String, name.toList.head? ≠ some 'M' →
      (withVariable w (Variables.nameStart ++ rest) s).environment.get? name = w.environment.get? name := by
    intro name hname
    refine (Environment.get?_set ..).trans (if_neg ?_)
    rintro rfl
    exact hname hhead
  have hfile : userFile? (withVariable w (Variables.nameStart ++ rest) s) = userFile? w := by
    simp only [userFile?, configHome?, World.home?, hget "XDG_CONFIG_HOME" (by decide), hget "HOME" (by decide)]
    rfl
  have hadd : ∀ path v, addFile (withVariable w (Variables.nameStart ++ rest) s) path v = addFile w path v :=
    fun _ _ => rfl
  have huser : ∀ v, addUserFile (withVariable w (Variables.nameStart ++ rest) s) v = addUserFile w v := by
    intro v
    rw [addUserFile, addUserFile, hfile]
    rfl
  have hlayer : ∀ (v : Value), ofValue (v.merge (Variables.layer (w.environment.set (Variables.nameStart ++ rest) s))) =
      ofValue (v.merge (Variables.layer w.environment)) := by
    intro v
    have hsame : ∀ k : Setting, (Variables.layer (w.environment.set (Variables.nameStart ++ rest) s)).get? k.table =
        (Variables.layer w.environment).get? k.table := by
      intro k
      refine Variables.layer_set (fun keys hkeys hk => hne ?_) w.environment s
      rw [Variables.path?_word hrest hkeys] at hk
      rw [show String.ofList (rest.toList.map Char.toLower) = k.table from Option.some.inj hk]
      cases k <;> decide
    have h := Variables.layer_isLayer w.environment
    have h' := Variables.layer_isLayer (w.environment.set (Variables.nameStart ++ rest) s)
    exact ofValue_congr (Value.merge_isTable v h.isTable) (Value.merge_isTable v h'.isTable) fun k =>
      Value.get?_merge_congr h h' rfl (hsame k)
  simp only [load, layers, huser, hadd, bind_assoc, pure_bind]
  exact congrArg (addUserFile w builtIn >>= ·) (funext fun v₁ =>
    congrArg (addFile w projectFile v₁ >>= ·) (funext hlayer))

/-! ## Layered settings -/

/-- **Settings are layered.** Where the sources give settings texts or nothing, loading succeeds, and each setting is the
text of the first source that has one, whatever the sources say about the other settings: the environment, the project's
file, the user's file; it is empty if none has one. Nothing else in the files matters, nor does a variable whose name goes
on with one word, of letters and digits for instance, unless the word is a table of settings. -/
theorem load_layered :
    (∀ (w : World) (user project : Option Value), Sources w user project →
      ∃ s, load w = .ok s ∧ ∀ k, s.get k = (chosen? w user project k).getD "") ∧
    (∀ (w w' : World) (user project user' project' : Option Value), Sources w user project →
      Sources w' user' project' → w'.environment = w.environment →
      (∀ k, user'.bind (Value.textAt k) = user.bind (Value.textAt k)) →
      (∀ k, project'.bind (Value.textAt k) = project.bind (Value.textAt k)) → load w' = load w) ∧
    ∀ (w : World) (rest s : String), (∀ c ∈ rest.toList, c ≠ '_' ∧ c ≠ '.' ∧ Text.isBlank c = false) →
      String.ofList (rest.toList.map Char.toLower) ∉ ["registry", "auth"] →
      load (withVariable w (Variables.nameStart ++ rest) s) = load w := by
  refine ⟨fun w user project h => load_fits h, ?_, fun w rest s hrest hne => load_withVariable w hrest hne s⟩
  intro w w' user project user' project' h h' henv huser hproject
  obtain ⟨s, hs, hget⟩ := load_fits h
  obtain ⟨s', hs', hget'⟩ := load_fits h'
  have hsame : ∀ k, chosen? w' user' project' k = chosen? w user project k := by
    intro k
    rw [chosen?, chosen?, henv, huser, hproject]
  have he : s' = s := ext_get fun k => by rw [hget', hget, hsame]
  rw [hs', hs, he]

/-- A user's file with a registry, a token and a key that is no setting. -/
def userText : Bytes := Utf8.encode "lang = \"en\"\n[registry]\nurl = \"http://u\"\n[auth]\ntoken = \"t\"\n"

/-- A project's file with another registry. -/
def projectText : Bytes := Utf8.encode "registry.url = \"http://p\"\n"

/-- The same with a key that is no setting. -/
def mirroredText : Bytes := Utf8.encode "registry.url = \"http://p\"\nregistry.mirrors = []\n"

/-- A world with the user's file, a project's file and a variable for the token file. -/
def layeredWorld (project : Bytes) : World where
  read path :=
    if path = "/h/.config/mcp-publisher/config.toml" then .ok userText
    else if path = ".mcp-publisher.toml" ∨ path = "/w/.mcp-publisher.toml" then .ok project
    else .error .notFound
  environment := [("MCP_PUBLISHER_AUTH__TOKEN_FILE", "/f")]
  directory := "/w"
  accountHome := some "/h"

theorem layeredWorld_plain (project : Bytes) : Variables.Plain (layeredWorld project).environment := by
  have hpath : Variables.path? "MCP_PUBLISHER_AUTH__TOKEN_FILE" = some Setting.tokenFile.path := by decide +kernel
  have hvalue : (Variables.value "/f").text? = some "/f" := by decide +kernel
  refine ⟨List.forall_mem_singleton.2 fun keys hkeys k hk => ?_, fun k => ?_⟩
  · cases hpath.symm.trans hkeys
    refine ⟨?_, Value.text?_eq_some.1 hvalue⟩
    revert k
    decide
  · exact List.forall_mem_singleton.2 (List.forall_mem_singleton.2 fun _ _ => rfl)

theorem layeredWorld_sources {project : Bytes} {user layer : Value} (huser : Toml.decode? userText = some user)
    (hproject : Toml.decode? project = some layer) (hfits : layer.Fits) :
    Sources (layeredWorld project) (some user) (some layer) := by
  have hroot : fromRoot (layeredWorld project) "/h/.config/mcp-publisher/config.toml" =
      "/h/.config/mcp-publisher/config.toml" := by
    change fromRoot (layeredWorld []) _ = _
    decide +kernel
  have hroot' : fromRoot (layeredWorld project) ".mcp-publisher.toml" = "/w/.mcp-publisher.toml" := by
    change fromRoot (layeredWorld []) _ = _
    decide +kernel
  have hread : (layeredWorld project).read "/h/.config/mcp-publisher/config.toml" = .ok userText := by
    simp [layeredWorld]
  have hread' : ∀ path, path = ".mcp-publisher.toml" ∨ path = "/w/.mcp-publisher.toml" →
      (layeredWorld project).read path = .ok project := by
    rintro path (rfl | rfl) <;> simp [layeredWorld]
  have hstat : ∀ {content : Bytes} path, (layeredWorld project).read path = .ok content →
      (layeredWorld project).stat path = .ok .file := by
    intro content path h
    change PathKind.ofContent ((layeredWorld project).read path) = _
    rw [h]
    rfl
  have huserFits : (Toml.decode? userText).all (fun l => decide l.Fits) = true := by decide +kernel
  rw [huser] at huserFits
  refine ⟨?userFile, ?projectFile, ?userFits, ?projectFits, layeredWorld_plain project, rfl⟩
  case userFile =>
    have hhome : (layeredWorld project).home? = some "/h" := rfl
    have hpath : Path.join "/h" ".config/mcp-publisher/config.toml" = "/h/.config/mcp-publisher/config.toml" := by
      decide +kernel
    refine .home hhome ?_
    rw [hpath]
    exact .regular (hstat _ hread) hread (hroot.symm ▸ hstat _ hread) (hroot.symm ▸ hread) huser
  case projectFile =>
    have hhere := hread' _ (Or.inl rfl)
    have hthere := hread' _ (Or.inr rfl)
    exact .regular (hstat _ hhere) hhere (hroot'.symm ▸ hstat _ hthere) (hroot'.symm ▸ hthere) hproject
  case userFits => exact fun l hl => Option.some.inj hl ▸ of_decide_eq_true huserFits
  case projectFits => exact fun l hl => Option.some.inj hl ▸ hfits

/-- The registry of the project's file, the token of the user's file and the token file of the environment, whatever else
stands in the files and in the environment. -/
theorem load_layered_each :
    load (layeredWorld projectText) = .ok ⟨"http://p", "t", "/f"⟩ ∧
    load (layeredWorld mirroredText) = load (layeredWorld projectText) ∧
    load (withVariable (layeredWorld projectText) "MCP_PUBLISHER_LOG" "debug") = load (layeredWorld projectText) := by
  obtain ⟨user, huser⟩ : ∃ user, Toml.decode? userText = some user := Option.isSome_iff_exists.1 (by decide +kernel)
  have hfits : ∀ text ∈ [projectText, mirroredText], (Toml.decode? text).any (fun l => decide l.Fits) = true := by
    decide +kernel
  have hlayer : ∀ text ∈ [projectText, mirroredText], ∃ l, Toml.decode? text = some l ∧ l.Fits := by
    intro text htext
    obtain ⟨l, hl, hfit⟩ := (Option.any_eq_true _ _).1 (hfits text htext)
    exact ⟨l, hl, of_decide_eq_true hfit⟩
  obtain ⟨project, hproject, hprojectFits⟩ := hlayer projectText (List.mem_cons_self ..)
  obtain ⟨mirrored, hmirrored, hmirroredFits⟩ := hlayer mirroredText (List.mem_cons_of_mem _ (List.mem_cons_self ..))
  have hsources := layeredWorld_sources huser hproject hprojectFits
  have hsources' := layeredWorld_sources huser hmirrored hmirroredFits
  refine ⟨?each, ?unknownKey, ?otherVariable⟩
  case each =>
    have hchosen : ∀ k, (chosen? (layeredWorld projectText) (Toml.decode? userText) (Toml.decode? projectText) k).getD "" =
        get ⟨"http://p", "t", "/f"⟩ k := by decide +kernel
    rw [huser, hproject] at hchosen
    obtain ⟨s, hs, hget⟩ := load_layered.1 _ _ _ hsources
    rw [hs, ext_get fun k => (hget k).trans (hchosen k)]
  case unknownKey =>
    have htexts : ∀ k, (Toml.decode? mirroredText).bind (Value.textAt k) =
        (Toml.decode? projectText).bind (Value.textAt k) := by decide +kernel
    rw [hmirrored, hproject] at htexts
    have henv : ∀ text, (layeredWorld text).environment = [("MCP_PUBLISHER_AUTH__TOKEN_FILE", "/f")] := fun _ => rfl
    exact load_layered.2.1 _ _ _ _ _ _ hsources hsources' (by rw [henv, henv]) (fun _ => rfl) htexts
  case otherVariable =>
    have hname : "MCP_PUBLISHER_LOG" = Variables.nameStart ++ "LOG" := by decide
    have hletters : ∀ c ∈ "LOG".toList, c ≠ '_' ∧ c ≠ '.' ∧ Text.isBlank c = false := by
      intro c hc
      change c ∈ ['L', 'O', 'G'] at hc
      simp only [List.mem_cons, List.not_mem_nil, or_false] at hc
      rcases hc with rfl | rfl | rfl <;> decide
    rw [hname]
    exact load_layered.2.2 (layeredWorld projectText) "LOG" "debug" hletters (by decide)

end Settings

end RegistryPublisher
