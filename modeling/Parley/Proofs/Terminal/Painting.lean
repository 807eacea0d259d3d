import Mathlib.Data.List.Infix
import Parley.Proofs.Conversation.Ending
import Parley.Proofs.Expr.Refusal
import Parley.Proofs.Script.Imported
import Parley.Terminal.Run

/-!
# Painted names

A colour of seven bytes that begins with a hash sign is cut into its channels, and a player's
session breaks off where it cannot be cut. That is the only way to break off: with colours that can
be cut, whatever is played ends as it should or says why not.

## Implementation notes

The colour that is cut belongs to a speaker of the registry. A speaker made up for a name has no
colour, an element of a script has one of these speakers or none, and what a conversation shows are
elements of its stores.
-/

namespace Parley

open Text (byteLength)

/-! ### Cutting at bytes -/

namespace Text

/-- A character begins at byte `n`, or the text ends there. -/
def CutsAt (n : Nat) (cs : List Char) : Prop :=
  ∃ front rest, cs = front ++ rest ∧ byteLength front = n

/-- No text is cut behind its end. -/
theorem CutsAt.le {n : Nat} {cs : List Char} (h : CutsAt n cs) : n ≤ byteLength cs := by
  obtain ⟨front, rest, rfl, rfl⟩ := h
  rw [byteLength_append]
  exact Nat.le_add_right _ _

/-- What stands behind a text has no say in where the text itself can be cut. -/
theorem cutsAt_append_iff {n : Nat} {cs : List Char} (hn : n ≤ byteLength cs) (more : List Char) :
    CutsAt n (cs ++ more) ↔ CutsAt n cs := by
  constructor
  · rintro ⟨front, rest, hcs, rfl⟩
    have hfront : front <+: cs ++ more := hcs ▸ List.prefix_append front rest
    obtain ⟨rest, rfl⟩ | ⟨excess, rfl⟩ :=
      List.prefix_or_prefix_of_prefix hfront (List.prefix_append cs more)
    · exact ⟨front, rest, rfl, rfl⟩
    · -- then nothing of `front` stands behind `cs`
      have hnone : excess = [] := by
        by_contra hne
        have hpos := byteLength_pos hne
        rw [byteLength_append] at hn
        omega
      exact ⟨cs ++ excess, [], by rw [hnone, List.append_nil, List.append_nil], rfl⟩
  · rintro ⟨front, rest, rfl, rfl⟩
    exact ⟨front, rest ++ more, List.append_assoc front rest more, rfl⟩

end Text

namespace Screen

open Text (CutsAt)

/-- A text whose front has the length asked for is cut behind it. -/
theorem cutFrom_append (start : Nat) (front rest : List Char) :
    cutFrom start (start + byteLength front) (front ++ rest) = .ok (front, rest) := by
  induction front generalizing start with
  | nil => cases rest <;> simp [cutFrom]
  | cons c front ih =>
      have hpos := c.utf8Size_pos
      rw [List.cons_append, Text.byteLength_cons, ← Nat.add_assoc, cutFrom, if_neg (by omega),
        if_neg (by omega), ih]
      rfl

/-- A text that is long enough is cut at the byte that is asked for. -/
theorem append_of_cutFrom {start n : Nat} {cs front rest : List Char}
    (h : cutFrom start n cs = .ok (front, rest)) (hstart : start ≤ n)
    (hn : n ≤ start + byteLength cs) : cs = front ++ rest ∧ start + byteLength front = n := by
  -- What is left of the text begins where the characters passed over end.
  induction cs generalizing start front with
  | nil =>
      cases h
      exact ⟨rfl, Nat.le_antisymm hstart hn⟩
  | cons c cs ih =>
      rw [cutFrom] at h
      split at h
      · next hle =>
          cases h
          exact ⟨rfl, Nat.le_antisymm hstart hle⟩
      · split at h
        · cases h
        · next hge =>
            cases hcut : cutFrom (start + c.utf8Size) n cs with
            | error miscut =>
                rw [hcut] at h
                cases h
            | ok cut =>
                rw [hcut] at h
                cases h
                rw [Text.byteLength_cons, ← Nat.add_assoc] at hn ⊢
                obtain ⟨hcs, hlength⟩ := ih hcut (Nat.le_of_not_lt hge) hn
                exact ⟨congrArg (c :: ·) hcs, hlength⟩

/-- A text can be cut at a byte exactly where no character reaches over it. -/
theorem cutFrom_isOk_iff {n : Nat} {cs : List Char} (hn : n ≤ byteLength cs) :
    (cutFrom 0 n cs).isOk = true ↔ CutsAt n cs := by
  constructor
  · intro h
    cases hcut : cutFrom 0 n cs with
    | error miscut =>
        rw [hcut] at h
        cases h
    | ok cut =>
        obtain ⟨hcs, hlength⟩ := append_of_cutFrom hcut (Nat.zero_le n) (by omega)
        exact ⟨cut.1, cut.2, hcs, by omega⟩
  · rintro ⟨front, rest, rfl, rfl⟩
    have hcut := cutFrom_append 0 front rest
    rw [Nat.zero_add] at hcut
    rw [hcut]
    rfl

instance (n : Nat) (cs : List Char) : Decidable (CutsAt n cs) :=
  decidable_of_iff (n ≤ byteLength cs ∧ (cutFrom 0 n cs).isOk = true)
    ⟨fun ⟨hn, h⟩ => (cutFrom_isOk_iff hn).mp h, fun h => ⟨h.le, (cutFrom_isOk_iff h.le).mpr h⟩⟩

/-- Two bytes can be had where the text can be cut at both ends of them. -/
theorem pairAt_isOk_iff {n : Nat} {cs : List Char} (hn : n + 2 ≤ byteLength cs) :
    (pairAt n cs).isOk = true ↔ CutsAt n cs ∧ CutsAt (n + 2) cs := by
  rw [← cutFrom_isOk_iff hn]
  cases hcut : cutFrom 0 (n + 2) cs with
  | error miscut => simp [pairAt, hcut, bind, Except.bind, Except.isOk, Except.toBool]
  | ok cut =>
      obtain ⟨front, tail⟩ := cut
      obtain ⟨rfl, hlength⟩ := append_of_cutFrom hcut (Nat.zero_le _) (by omega)
      have hfront : n ≤ byteLength front := by omega
      have hpair : (pairAt n (front ++ tail)).isOk = (cutFrom 0 n front).isOk := by
        simp only [pairAt, hcut, bind, Except.bind]
        cases cutFrom 0 n front <;> rfl
      rw [hpair, cutFrom_isOk_iff hfront, Text.cutsAt_append_iff hfront]
      exact (and_iff_left rfl).symm

/-! ### Colours -/

/-- The cut behind the hash sign and the cut at the end can always be made. -/
theorem cutsAt_of_hasChannels {color : String} (h : hasChannels color = true) :
    CutsAt 1 color.toList ∧ CutsAt 7 color.toList := by
  simp only [hasChannels, Bool.and_eq_true, decide_eq_true_eq, String.startsWith_string_iff] at h
  obtain ⟨hbytes, rest, hrest⟩ := h
  refine ⟨⟨['#'], rest, hrest.symm, rfl⟩, color.toList, [], (List.append_nil _).symm, ?_⟩
  rw [Text.byteLength_toList, hbytes]

/-- A colour has its channels exactly where both inner cuts fall between characters. -/
theorem channels_isOk_iff {color : String} (h : hasChannels color = true) :
    (channels color).isOk = true ↔ CutsAt 3 color.toList ∧ CutsAt 5 color.toList := by
  obtain ⟨hfirst, hlast⟩ := cutsAt_of_hasChannels h
  have hlength : 7 ≤ byteLength color.toList := hlast.le
  have hchannels : (channels color).isOk = true ↔ (pairAt 1 color.toList).isOk = true ∧
      (pairAt 3 color.toList).isOk = true ∧ (pairAt 5 color.toList).isOk = true := by
    simp only [channels, List.mapM_cons, List.mapM_nil, bind, Except.bind]
    cases pairAt 1 color.toList <;> cases pairAt 3 color.toList <;>
      cases pairAt 5 color.toList <;> simp [Except.isOk, Except.toBool, pure, Except.pure]
  rw [hchannels, pairAt_isOk_iff (by omega), pairAt_isOk_iff (by omega),
    pairAt_isOk_iff (by omega)]
  tauto

end Screen

/-- A colour that is taken for three channels can be cut between them. -/
def Speaker.Paintable (s : Speaker) : Prop :=
  ∀ color ∈ s.color, Screen.hasChannels color = true →
    Text.CutsAt 3 color.toList ∧ Text.CutsAt 5 color.toList

/-- The name of whoever speaks can be painted. -/
def Element.Paintable (e : Element) : Prop :=
  ∀ s ∈ e.speaker, s.Paintable

namespace Screen

/-- Painting a name fails for just the colours that cannot be cut. -/
theorem paintedName_isOk_iff (s : Speaker) : (paintedName s).isOk = true ↔ s.Paintable := by
  unfold paintedName Speaker.Paintable
  cases s.color with
  | none => simp [Except.isOk, Except.toBool]
  | some color =>
      by_cases h : hasChannels color = true
      · have hmap : ((channels color).map fun _ => s.name).isOk = (channels color).isOk := by
          cases channels color <;> rfl
        simp [h, hmap, channels_isOk_iff h]
      · simp [h, Except.isOk, Except.toBool]

/-- An element is written out whole exactly where its speaker can be painted. -/
theorem ofElement_unbroken_iff (e : Element) : (ofElement e).fault = none ↔ e.Paintable := by
  unfold ofElement Element.Paintable
  cases e.speaker with
  | none => simp
  | some s =>
      have hname := paintedName_isOk_iff s
      cases hpainted : paintedName s <;> simp_all [Except.isOk, Except.toBool]

/-- Only an element shown can break off what is written. -/
theorem ofAct_unbroken_iff (a : Act) :
    (ofAct a).fault = none ↔ ∀ e, .shown e = a → e.Paintable := by
  cases a with
  | shown e => simp [ofAct, ofElement_unbroken_iff]
  | ran command args =>
      refine iff_of_true ?_ (by simp)
      unfold ofAct
      split
      · contradiction
      · split <;> rfl
      · rfl
  | _ => simp [ofAct]

/-- A journal is written out whole exactly where all speakers shown in it can be painted. -/
theorem ofActs_unbroken_iff (acts : List Act) :
    (ofActs acts).fault = none ↔ ∀ e, .shown e ∈ acts → e.Paintable := by
  induction acts with
  | nil => simp [ofActs]
  | cons a acts ih =>
      simp only [ofActs, List.mem_cons, or_imp, forall_and, ← ofAct_unbroken_iff, ← ih]
      cases hfault : (ofAct a).fault <;> simp [hfault]

end Screen

/-! ### What is shown -/

namespace Turn

variable {t u : Turn} {e : Element}

/-- Only elements of the stores are shown. -/
theorem Change.mem_of_shown (h : Change t u) (he : .shown e ∈ u.talk.journal) :
    .shown e ∈ t.talk.journal ∨ ∃ s ∈ t.talk.stores, ∃ d ∈ s.dialogues, e ∈ d.elements := by
  cases h with
  | quiet vars stream hacts hhops =>
      refine (List.mem_append.mp he).imp_right fun hmem => ?_
      cases hacts _ hmem
  | close =>
      left
      have hclosed : .shown e ∈ t.talk.close.journal := he
      simpa using hclosed
  | begin hhops htarget hfresh hactive =>
      left
      simpa [Conversation.begin, Conversation.emit] using he
  | @present a d index e' ha hd he' =>
      refine (List.mem_append.mp he).imp_right fun hmem => ?_
      obtain rfl : e = e' := by simpa using hmem
      obtain ⟨s, hs, hplace⟩ := Option.bind_eq_some_iff.mp hd
      exact ⟨s, List.mem_of_getElem? hs, d, List.mem_of_getElem? hplace, List.mem_of_getElem? he'⟩

/-- Only elements of the stores are ever shown. -/
theorem Changes.mem_of_shown (h : Changes t u) (he : .shown e ∈ u.talk.journal) :
    .shown e ∈ t.talk.journal ∨ ∃ s ∈ t.talk.stores, ∃ d ∈ s.dialogues, e ∈ d.elements := by
  induction h with
  | refl => exact .inl he
  | tail hbefore hlast ih =>
      obtain hjournal | hstore := hlast.mem_of_shown he
      · exact ih hjournal
      · rw [Changes.stores_eq hbefore] at hstore
        exact .inr hstore

end Turn

/-- Every element that can be shown can be painted. -/
def Conversation.Paintable (c : Conversation) : Prop :=
  ∀ s ∈ c.stores, ∀ d ∈ s.dialogues, ∀ e ∈ d.elements, e.Paintable

namespace Registry

/-- A speaker that a name is resolved to is registered or has no colour. -/
theorem paintable_of_resolve {reg : Registry} (h : ∀ s ∈ reg.speakers, s.Paintable)
    {name : String} {s : Speaker} (hs : reg.resolve name = some s) : s.Paintable := by
  obtain hmem | rfl := mem_of_resolve hs
  · exact h s hmem
  · exact fun color hcolor => absurd hcolor (Option.not_mem_none color)

end Registry

/-- Where all registered speakers can be painted, so can those of any script. -/
theorem Script.paintable_of_parse {reg : Registry} {source : String} {script : Script}
    (hreg : ∀ s ∈ reg.speakers, s.Paintable) (h : parse reg source = .ok script) :
    ∀ d ∈ script.dialogues, ∀ e ∈ d.elements, e.Paintable := by
  intro d hd
  rw [(dialogues_of_parse h).1] at hd
  obtain ⟨s, hs, rfl⟩ := List.mem_map.mp hd
  exact Section.forall_speaker_elementsFrom (fun s hs => absurd hs (Option.not_mem_none s))
    (fun d hd => absurd hd (Option.not_mem_none d))
    fun name rest _ s hs => Registry.paintable_of_resolve hreg hs

theorem Store.paintable_of_ofSource {reg : Registry} {name source : String} {store : Store}
    (hreg : ∀ s ∈ reg.speakers, s.Paintable) (h : ofSource name reg source = .ok store) :
    ∀ d ∈ store.dialogues, ∀ e ∈ d.elements, e.Paintable := by
  obtain ⟨script, hparse, hdialogues, -⟩ := script_of_ofSource h
  rw [hdialogues]
  exact Script.paintable_of_parse hreg hparse

/-! ### Sessions -/

namespace Ending

/-- How a task ends that does not break off. -/
def Regular (ending : Ending) : Prop :=
  ending = .done ∨ ∃ message, ending = .failed message

/-- The session broke off in the middle of what it wrote. -/
def BrokenOff (ending : Ending) : Prop :=
  ∃ fault, ending = .crashed fault

end Ending

namespace Session

/-- A start is followed like every call. Only where that goes well but comes to nothing the session
fails all the same. -/
theorem start_cases (c : Conversation) (key file : String) :
    Session.start c key file = ({ talk := c } : Session).follow (c.start key) ∨
      (({ talk := c } : Session).follow (c.start key)).ending = .done ∧
        (c.start key).result = .ok false ∧ ∃ message, Session.start c key file =
          { ({ talk := c } : Session).follow (c.start key) with ending := .failed message } := by
  unfold Session.start
  dsimp only
  by_cases hdone : (({ talk := c } : Session).follow (c.start key)).ending = .done
  · cases (c.start key).result with
    | error fault => exact .inl (by simp)
    | ok answer =>
        cases answer with
        | true => exact .inl (by simp)
        | false => exact (ite_eq_or_eq _ _ _).symm.imp_right fun heq => ⟨hdone, rfl, _, heq⟩
  · exact .inl (by simp [hdone])

/-- Nothing of the session is left to be written, and all that may come can be painted. -/
structure Sound (s : Session) : Prop where
  journal : s.talk.journal = []
  paintable : s.talk.Paintable
  ending : s.ending.Regular

namespace Sound

variable {s : Session}

/-- What a call of the host does is written without a break. -/
theorem follow {α : Type} (h : s.Sound) {r : Conversation.Result α} {hops : Nat}
    (hcall : ∃ u, Turn.Changes ⟨s.talk, hops⟩ u ∧ u.talk = r.talk) : (s.follow r).Sound := by
  obtain ⟨u, hchanges, htalk⟩ := hcall
  have hwritten : (Screen.ofActs r.talk.journal).fault = none := by
    rw [Screen.ofActs_unbroken_iff]
    intro e he
    rw [← htalk] at he
    obtain hjournal | ⟨store, hstore, d, hd, hmem⟩ := hchanges.mem_of_shown he
    · rw [h.journal] at hjournal
      exact absurd hjournal List.not_mem_nil
    · exact h.paintable store hstore d hd e hmem
  constructor
  · rw [follow_talk]
  · rw [follow_talk, ← htalk]
    intro store hstore
    exact h.paintable store (hchanges.stores_eq ▸ hstore)
  · simp only [Session.follow, Conversation.takeJournal, hwritten]
    cases r.result with
    | ok answer => exact h.ending
    | error fault => exact .inr ⟨fault.message, rfl⟩

theorem print (h : s.Sound) (text : String) : (s.print text).Sound :=
  ⟨h.journal, h.paintable, h.ending⟩

theorem confirm (h : s.Sound) : s.confirm.Sound :=
  h.follow (Turn.confirm_changes s.talk _)

theorem answer (h : s.Sound) (line : String) : (s.answer line).Sound := by
  unfold Session.answer
  cases Play.Answer.read s.choices.length line with
  | goOn => exact h.confirm
  | choose selected => exact confirm (s := s.select selected) ⟨h.journal, h.paintable, h.ending⟩
  | unclear => exact h.print _

theorem converse (h : s.Sound) (lines : List String) : (s.converse lines).Sound := by
  induction lines generalizing s with
  | nil =>
      unfold Session.converse
      split
      · exact h.print _
      · exact h
  | cons line lines ih =>
      rw [Session.converse]
      split
      · exact ih ((h.print s.prompt).answer line)
      · exact h

theorem start {c : Conversation} (hjournal : c.journal = []) (h : c.Paintable)
    (key file : String) : (Session.start c key file).Sound := by
  have hopen : ({ talk := c } : Session).Sound := ⟨hjournal, h, .inl rfl⟩
  have hfollow := hopen.follow (Turn.start_changes c key)
  obtain heq | ⟨-, -, message, heq⟩ := start_cases c key file
  · rwa [heq]
  · rw [heq]
    exact ⟨hfollow.journal, hfollow.paintable, .inr ⟨message, rfl⟩⟩

/-- Whatever the player types, the session does not break off. -/
theorem play (h : s.Sound) (input : List String) : (s.play input).ending.Regular := by
  have hlast := h.converse input
  unfold Session.play Session.finish
  split
  · exact hlast.ending
  · exact hlast.ending

end Sound

end Session

namespace Terminal

/-- A conversation over a store that can be painted can be painted. -/
theorem paintable_talk {store : Store}
    (h : ∀ d ∈ store.dialogues, ∀ e ∈ d.elements, e.Paintable) (vars : Variables)
    (seed : Option UInt64) (entropy : UInt64) : (talk store vars seed entropy).Paintable := by
  intro s hs
  obtain rfl : s = store := by simpa [talk, Conversation.new, Conversation.addStore] using hs
  exact h

theorem paintable_of_loadScript {files : Files} {reg : Registry}
    (hreg : ∀ s ∈ reg.speakers, s.Paintable) {path : String} {store : Store}
    (h : (loadScript files reg path).1 = .ok store) :
    ∀ d ∈ store.dialogues, ∀ e ∈ d.elements, e.Paintable := by
  unfold loadScript at h
  split at h
  · next source store' hsource hstore =>
      cases h
      cases hof : Store.ofSource (Path.stem path) reg source with
      | error error =>
          simp [Store.load, hsource, hof, Except.mapError, bind, Except.bind] at hstore
      | ok store' =>
          simp only [Store.load, hsource, hof, Except.mapError, bind, Except.bind,
            Except.ok.injEq] at hstore
          subst hstore
          exact Store.paintable_of_ofSource hreg hof
  · cases h
  · cases h

/-- With colours that can be cut, playing a script ends as it should, or with a message of what went
wrong: whatever the files hold, the key, the variables and the lines that the player types are. -/
theorem play_ends {files : Files} {speakers : Option String} {reg : Registry}
    (hreg : loadSpeakers files speakers = .ok reg) (hcolors : ∀ s ∈ reg.speakers, s.Paintable)
    (entropy : UInt64) (input : List String) (path key : String) (settings : List String)
    (seed : Option UInt64) :
    (perform files entropy input ⟨.play path key settings seed, speakers⟩).2.Regular := by
  simp only [perform, hreg, onScript]
  split
  · exact .inr ⟨_, rfl⟩
  · next store hstore =>
      have hpaintable := paintable_of_loadScript hcolors hstore
      simp only [Terminal.play, Terminal.session]
      cases Play.applySettings {} settings with
      | error fault => exact .inr ⟨_, rfl⟩
      | ok vars =>
          have htalk := paintable_talk hpaintable vars seed entropy
          exact (Session.Sound.start rfl htalk key path).play input

/-- A script in which Bob speaks, and a speaker file that gives him a colour. -/
def hall (color : String) : Files := fun path =>
  if path = "bob.toml" then .ok s!"[[speaker]]\nname = \"Bob\"\ncolor = \"{color}\"\n"
  else .ok "# k\n[Bob]: hi\n"

/-- Two channels hold a character of two bytes each, and are cut around it. -/
theorem even_color_play_ends :
    loadSpeakers (hall "#éabé") (some "bob.toml") =
        .ok (.ofSpeakers false [⟨"Bob", [], some "#éabé"⟩]) ∧
      Screen.hasChannels "#éabé" = true ∧
      (perform (hall "#éabé") 0 ["", ""]
        ⟨.play "hall.dlg" "k" ["x=1"] none, some "bob.toml"⟩).2.Regular := by
  have hreg : loadSpeakers (hall "#éabé") (some "bob.toml") =
      .ok (.ofSpeakers false [⟨"Bob", [], some "#éabé"⟩]) := rfl
  refine ⟨hreg, by decide +kernel, play_ends hreg ?_ 0 ["", ""] "hall.dlg" "k" ["x=1"] none⟩
  refine List.forall_mem_singleton.mpr fun color hcolor _ => ?_
  rw [← Option.mem_some.mp hcolor]
  decide

/-- A character of two bytes stands across the first two channels. -/
theorem uneven_color_play_breaks_off :
    loadSpeakers (hall "#1é234") (some "bob.toml") =
        .ok (.ofSpeakers false [⟨"Bob", [], some "#1é234"⟩]) ∧
      (perform (hall "#1é234") 0 [] ⟨.play "hall.dlg" "k" [] none, some "bob.toml"⟩).2 = .crashed
        "end byte index 3 is not a char boundary; it is inside 'é' (bytes 2..4 of string)" :=
  ⟨rfl, by decide +kernel⟩

end Terminal

end Parley
