import HybridSearch.Proofs.Store.Contents
import HybridSearch.Proofs.Wire.Replies
import HybridSearch.Wire.Link

/-!
# Replies to a look-up of a hash

A server gives the attributes of a hash in one of two layouts, as a map or in an array in which names
and values take turns. Both say the same, and what they say of a document is what a store says that
has it.

* `Reply.pairUp_inTurn`: what takes turns in an array is the pairs of the map.
* `Row.ofHash_eq_ok_iff`: the row of a hash.
* `Link.run_fetch`: a look-up over a link.
* `Row.hash_layouts_agree`: the two layouts, and the two engines.
-/
namespace HybridSearch

/-! ## The two layouts -/

namespace Reply

theorem pairUp_inTurn (entries : List (Reply × Reply)) : pairUp (inTurn entries) = entries := by
  induction entries with
  | nil => rfl
  | cons entry rest ih => exact congrArg (entry :: ·) ih

theorem length_inTurn (entries : List (Reply × Reply)) :
    (inTurn entries).length = 2 * entries.length := by
  induction entries with
  | nil => rfl
  | cons entry rest ih =>
    have hcons : inTurn (entry :: rest) = entry.1 :: entry.2 :: inTurn rest := rfl
    rw [hcons, List.length_cons, List.length_cons, List.length_cons, ih]
    omega

end Reply

namespace Row

variable {key : String} {entries : List (Reply × Reply)} {row : Row}

theorem ofReply_array (key : String) (entries : List (Reply × Reply)) :
    ofReply key .hash (.array (Reply.inTurn entries)) = ofReply key .hash (.map entries) := by
  cases entries with
  | nil => rfl
  | cons entry rest =>
    have heven : (Reply.inTurn (entry :: rest)).length % 2 ≠ 1 := by
      rw [Reply.length_inTurn]
      omega
    have hpairs := Reply.pairUp_inTurn (entry :: rest)
    show (if (Reply.inTurn (entry :: rest)).length % 2 = 1 then _ else _) = _
    rw [if_neg heven, hpairs]
    rfl

theorem ofReply_odd {items : List Reply} (hodd : items.length % 2 = 1) :
    ofReply key .hash (.array items) = .error (.oddAttributes key) := by
  cases items with
  | nil => cases hodd
  | cons first rest => exact if_pos hodd

theorem mapM_attributeOf_eq_ok_iff {badValue : Reply → ReplyFault} {attributes : Attributes} :
    (entries.mapM fun entry => Reply.attributeOf badValue entry.1 entry.2) = .ok attributes ↔
      Reply.Lists (Reply.inTurn entries) attributes := by
  induction entries generalizing attributes with
  | nil =>
    constructor
    · rintro ⟨⟩
      exact .nil
    · rintro ⟨⟩
      rfl
  | cons entry rest ih =>
    rw [List.mapM_cons]
    simp only [bind_eq_ok_iff, Reply.attributeOf_eq_ok_iff, ih]
    constructor
    · rintro ⟨⟨name, bytes⟩, ⟨hname, hvalue⟩, later, hlater, ⟨⟩⟩
      exact .cons hname hvalue hlater
    · intro h
      cases h with
      | cons hname hvalue hlater => exact ⟨_, ⟨hname, hvalue⟩, _, hlater, rfl⟩

/-- A hash is read if each of its names stands for a text and each value for bytes, and its row has
these in order. -/
theorem ofHash_eq_ok_iff :
    ofHash key entries = .ok row ↔
      row.id = key ∧ Reply.Lists (Reply.inTurn entries) row.attributes := by
  rw [ofHash, bind_eq_ok_iff]
  simp only [mapM_attributeOf_eq_ok_iff]
  constructor
  · rintro ⟨attributes, hattributes, ⟨⟩⟩
    exact ⟨rfl, hattributes⟩
  · rintro ⟨rfl, hattributes⟩
    exact ⟨row.attributes, hattributes, rfl⟩

theorem ofReply_map_of_lists {attributes : Attributes} (hne : entries ≠ [])
    (h : Reply.Lists (Reply.inTurn entries) attributes) :
    ofReply key .hash (.map entries) = .ok (some ⟨key, attributes⟩) := by
  have hrow : ofHash key entries = .ok ⟨key, attributes⟩ := ofHash_eq_ok_iff.mpr ⟨rfl, h⟩
  cases entries with
  | nil => exact absurd rfl hne
  | cons entry rest =>
    show (ofHash key (entry :: rest)).map some = _
    rw [hrow]
    rfl

end Row

/-! ## Look-ups over a link -/

namespace Reply

theorem itemsFailure?_eq_none {items : List Reply} (h : ∀ r ∈ items, r.failure? = none) :
    itemsFailure? items = none := by
  induction items with
  | nil => rfl
  | cons r rest ih =>
    obtain ⟨hr, hrest⟩ := List.forall_mem_cons.mp h
    rw [itemsFailure?, hr]
    exact ih hrest

theorem entriesFailure?_eq_none {entries : List (Reply × Reply)}
    (h : ∀ r ∈ inTurn entries, r.failure? = none) : entriesFailure? entries = none := by
  induction entries with
  | nil => rfl
  | cons entry rest ih =>
    have hentry := List.forall_mem_cons.mp h
    have hvalue := List.forall_mem_cons.mp hentry.2
    rw [entriesFailure?, entryFailure?, hentry.1]
    show (entry.2.failure?.orElse fun _ => entriesFailure? rest) = none
    rw [hvalue.1]
    exact ih hvalue.2

theorem failure?_of_mem_entries {attributes : Attributes} {r : Reply}
    (h : r ∈ inTurn attributes.entries) : r.failure? = none := by
  obtain ⟨entry, hentry, hr⟩ := List.mem_flatMap.mp h
  obtain ⟨pair, -, rfl⟩ := List.mem_map.mp hentry
  simp only [List.mem_cons, List.not_mem_nil, or_false] at hr
  rcases hr with rfl | rfl <;> rfl

end Reply

namespace Link

variable {link : Link} {r : Reply}

/-- A reply that has arrived and holds no error is the answer to the first attempt. -/
theorem run_ask (hnext : link.incoming.head? = some (.reply r)) (hr : r.failure? = none)
    (command : Command) :
    (ask command).run link = (.ok r, ⟨link.incoming.tail, command :: link.sent⟩) := by
  have hsend : (send command).run link = (.ok r, ⟨link.incoming.tail, command :: link.sent⟩) := by
    show send command link = _
    simp only [send, hnext, hr]
  show (RetryPolicy.runFrom .query LinkFault.isTransient (fun _ => pure ()) (send command) 2 1).run
    link = _
  rw [RetryPolicy.runFrom, StateT.run_bind, hsend]
  rfl

theorem run_fetch (hnext : link.incoming.head? = some (.reply r)) (hr : r.failure? = none)
    (key : String) (storage : Storage) :
    ((Engine.fetch key storage : StateM Link _).run link).1 =
      (Row.ofReply key storage r).mapError .reply := by
  show ((ask (.read key storage) >>= fun outcome =>
    pure (answered outcome fun r => (Row.ofReply key storage r).mapError .reply)).run link).1 = _
  rw [StateT.run_bind, run_ask hnext hr]
  rfl

end Link

/-! ## Documents of a store -/

/-- The two layouts in which a server gives the attributes of a hash. -/
inductive Reply.Gives (attributes : Attributes) : Reply → Prop
  | array : Gives attributes (.array (inTurn attributes.entries))
  | map : Gives attributes (.map attributes.entries)

namespace Reply.Gives

variable {attributes : Attributes} {r : Reply}

theorem failure?_eq_none (h : r.Gives attributes) : r.failure? = none := by
  cases h with
  | array => exact itemsFailure?_eq_none fun _ => failure?_of_mem_entries
  | map => exact entriesFailure?_eq_none fun _ => failure?_of_mem_entries

theorem ofReply_eq (h : r.Gives attributes) (hne : attributes ≠ []) (key : String) :
    Row.ofReply key .hash r = .ok (some ⟨key, attributes⟩) := by
  have hentries : attributes.entries ≠ [] := by simpa [Attributes.entries] using hne
  have hmap : Row.ofReply key .hash (.map attributes.entries) = .ok (some ⟨key, attributes⟩) :=
    Row.ofReply_map_of_lists hentries (lists_inTurn attributes)
  cases h with
  | array => rw [Row.ofReply_array, hmap]
  | map => exact hmap

end Reply.Gives

namespace Row

/-- Names and values that take turns in an array are read as the same names and values in a map, with
the same outcome whatever they are; an array of odd length is refused. A hash that is written where
nothing was stored is found in the store as it was written; and over a link to a server that gives
its attributes in one of the two layouts it is found just so. -/
theorem hash_layouts_agree :
    (∀ (key : String) (entries : List (Reply × Reply)),
      ofReply key .hash (.array (entries.flatMap fun entry => [entry.1, entry.2])) =
        ofReply key .hash (.map entries)) ∧
    (∀ (key : String) (items : List Reply), items.length % 2 = 1 →
      ofReply key .hash (.array items) = .error (.oddAttributes key)) ∧
    ∀ (s : Store) (key : String) (attributes : Attributes),
      lookUp? key s.documents = none → attributes ≠ [] →
      ∃ s', s.load [⟨key, .hash attributes⟩] = (.ok (), s') ∧
        s'.fetch key .hash = .ok (some ⟨key, attributes⟩) ∧
        ∀ r : Reply, r.Gives attributes →
          ofReply key .hash r = .ok (some ⟨key, attributes⟩) ∧
          ∀ link : Link, link.incoming.head? = some (.reply r) →
            ((Engine.fetch key .hash : StateM Link _).run link).1 =
              ((Engine.fetch key .hash : StateM Store _).run s').1 := by
  refine ⟨ofReply_array, fun key items hodd => ofReply_odd hodd, ?_⟩
  intro s key attributes habsent hne
  have hload : s.load [⟨key, .hash attributes⟩] =
      (.ok (), { s with documents := putAt key (.hash attributes) s.documents }) :=
    Store.load_singleton (by rw [habsent]; rfl)
  have hfetch : ({ s with documents := putAt key (.hash attributes) s.documents } : Store).fetch key
      .hash = .ok (some ⟨key, attributes⟩) := Store.fetch_of_hash lookUp?_putAt_self
  refine ⟨_, hload, hfetch, fun r hr => ?_⟩
  have hread : ofReply key .hash r = .ok (some ⟨key, attributes⟩) := hr.ofReply_eq hne key
  refine ⟨hread, fun link hnext => ?_⟩
  rw [Link.run_fetch hnext hr.failure?_eq_none, hread]
  exact hfetch.symm

/-- A name, and a picture that is no text. -/
def portrait : Attributes :=
  [("name", Bytes.ofText "Sam"), ("picture", [0xFF, 0xD8])]

def portraits : Store where
  documents := [("user:1", .hash [("name", Bytes.ofText "Kim")])]

/-- A portrait is written beside another one and comes back over a link in either layout; without the
picture the array ends in a name and is refused. -/
theorem portrait_in_both_layouts :
    lookUp? "user:2" portraits.documents = none ∧ portrait ≠ [] ∧
      (Reply.inTurn portrait.entries).dropLast.length % 2 = 1 ∧
      ofReply "user:2" .hash (.array (Reply.inTurn portrait.entries).dropLast) =
        .error (.oddAttributes "user:2") ∧
      ∃ s', portraits.load [⟨"user:2", .hash portrait⟩] = (.ok (), s') ∧
        ∀ r ∈ [Reply.array (Reply.inTurn portrait.entries), Reply.map portrait.entries],
          ((Engine.fetch "user:2" .hash : StateM Link _).run ⟨[.reply r], []⟩).1 =
            ((Engine.fetch "user:2" .hash : StateM Store _).run s').1 := by
  have habsent : lookUp? "user:2" portraits.documents = none := by decide
  have hne : portrait ≠ [] := List.cons_ne_nil _ _
  have hodd : (Reply.inTurn portrait.entries).dropLast.length % 2 = 1 := rfl
  obtain ⟨-, hrefused, hagree⟩ := hash_layouts_agree
  obtain ⟨s', hload, -, hgiven⟩ := hagree portraits "user:2" portrait habsent hne
  refine ⟨habsent, hne, hodd, hrefused _ _ hodd, s', hload, fun r hr => ?_⟩
  have hgives : r.Gives portrait := by
    rcases List.mem_pair.mp hr with rfl | rfl
    · exact .array
    · exact .map
  exact (hgiven r hgives).2 ⟨[.reply r], []⟩ rfl

end Row
end HybridSearch
