import DocQuery.Proofs.Statement.Mentions
import DocQuery.Statement.Grammar

/-!
# Sites of calls

Every call of `RAND` that a statement is read with has a site of its own, at any depth of its
subqueries, so that no two calls draw one number in a row.  What draws nothing has no sites,
and is as it was read.
-/

namespace DocQuery

/-! ## The sites of a statement -/

def Function.sites : Function → List (List Nat)
  | random site => [site]
  | _ => []

mutual

def Term.sites : Term → List (List Nat)
  | ⟨_, _, form⟩ => form.sites

def Form.sites : Form → List (List Nat)
  | .path _ => []
  | .object members => sitesOfTerms members
  | .array elements => sitesOfTerms elements
  | .constant _ => []
  | .call f arguments => f.sites ++ sitesOfTerms arguments
  | .arithmetic _ left right => left.sites ++ right.sites
  | .condition c => c.sites
  | .subquery s => s.sites
  | .existence s => s.sites

def sitesOfTerms : List Term → List (List Nat)
  | [] => []
  | t :: rest => t.sites ++ sitesOfTerms rest

def Condition.sites : Condition → List (List Nat)
  | .compare _ left right => left.sites ++ right.sites
  | .all parts => sitesOfConditions parts
  | .any parts => sitesOfConditions parts
  | .constant _ => []
  | .term t => t.sites

def sitesOfConditions : List Condition → List (List Nat)
  | [] => []
  | c :: rest => c.sites ++ sitesOfConditions rest

def Projection.sites : Projection → List (List Nat)
  | .columns terms => sitesOfTerms terms
  | .value t => t.sites

def Source.sites : Source → List (List Nat)
  | .documents => []
  | .path _ _ => []
  | .each _ _ => []
  | .subquery s _ => s.sites

def Join.sites : Join → List (List Nat)
  | .each _ _ => []
  | .subquery s _ => s.sites

def sitesOfJoins : List Join → List (List Nat)
  | [] => []
  | j :: rest => j.sites ++ sitesOfJoins rest

def sitesOfKeys : List SortKey → List (List Nat)
  | [] => []
  | ⟨t, _⟩ :: rest => t.sites ++ sitesOfKeys rest

def sitesOfFilter : Option Condition → List (List Nat)
  | none => []
  | some c => c.sites

def Statement.sites : Statement → List (List Nat)
  | ⟨projection, source, joins, filter, grouping, ordering, _, _, _⟩ =>
      projection.sites ++ source.sites ++ sitesOfJoins joins ++ sitesOfFilter filter ++
        sitesOfTerms grouping ++ sitesOfKeys ordering

end

/-! ## Different sites -/

/-- Different sites, all of them reached through a given one. -/
structure Below (site : List Nat) (sites : List (List Nat)) : Prop where
  nodup : sites.Nodup
  suffix : ∀ other ∈ sites, site <:+ other

/-- Different sites, each of them reached by one of the first steps from a given one. -/
structure Behind (site : List Nat) (steps : Nat) (sites : List (List Nat)) : Prop where
  nodup : sites.Nodup
  reached : ∀ other ∈ sites, ∃ step < steps, step :: site <:+ other

section

variable {site : List Nat} {steps : Nat} {sites others : List (List Nat)}

theorem Below.nil (site : List Nat) : Below site [] :=
  ⟨List.nodup_nil, by simp⟩

theorem Behind.nil (site : List Nat) : Behind site 0 [] :=
  ⟨List.nodup_nil, by simp⟩

/-- What is reached by another step is none of the sites before. -/
theorem Behind.next (h : Behind site steps sites) (h' : Below (steps :: site) others) :
    Behind site (steps + 1) (sites ++ others) := by
  refine ⟨List.nodup_append.mpr ⟨h.nodup, h'.nodup, ?_⟩, fun other hother => ?_⟩
  · rintro other hother _ hother' rfl
    obtain ⟨step, hstep, hsuffix⟩ := h.reached other hother
    have hsame : step :: site = steps :: site :=
      (List.suffix_of_suffix_length_le hsuffix (h'.suffix other hother') (by simp)).eq_of_length
        (by simp)
    exact absurd (List.cons.inj hsame).1 (Nat.ne_of_lt hstep)
  · rcases List.mem_append.mp hother with hother | hother
    · obtain ⟨step, hstep, hsuffix⟩ := h.reached other hother
      exact ⟨step, Nat.lt_succ_of_lt hstep, hsuffix⟩
    · exact ⟨steps, Nat.lt_succ_self steps, h'.suffix other hother⟩

theorem Behind.below (h : Behind site steps sites) : Below site sites :=
  ⟨h.nodup, fun other hother =>
    have ⟨step, _, hsuffix⟩ := h.reached other hother
    (List.suffix_cons step site).trans hsuffix⟩

theorem Behind.two (h : Below (0 :: site) sites) (h' : Below (1 :: site) others) :
    Behind site 2 (sites ++ others) :=
  ((Behind.nil site).next h).next h'

/-- The site of a call is none of those that are reached from it. -/
theorem Behind.call (f : Function) (h : Behind site steps sites) :
    Below site ((f.sited site).sites ++ sites) := by
  have hsite : site ∉ sites := fun hsite => by
    obtain ⟨step, -, hsuffix⟩ := h.reached site hsite
    have hlength := hsuffix.length_le
    rw [List.length_cons] at hlength
    omega
  cases f with
  | random other =>
      refine ⟨List.nodup_cons.mpr ⟨hsite, h.nodup⟩, fun other hother => ?_⟩
      rcases List.mem_cons.mp hother with rfl | hother
      · exact List.suffix_refl _
      · exact h.below.suffix other hother
  | _ => exact h.below

end

mutual

theorem Term.below_sites (site : List Nat) : ∀ t : Term, Below site (t.sited site).sites
  | ⟨_, _, form⟩ => by
      rw [Term.sited, Term.sites]
      exact form.below_sites site

theorem Form.below_sites (site : List Nat) : ∀ f : Form, Below site (f.sited site).sites
  | .path _ | .constant _ => by
      rw [Form.sited, Form.sites]
      exact .nil site
  | .object members => by
      rw [Form.sited, Form.sites]
      exact (behind_sitesOfTerms site members).below
  | .array elements => by
      rw [Form.sited, Form.sites]
      exact (behind_sitesOfTerms site elements).below
  | .call f arguments => by
      rw [Form.sited, Form.sites]
      exact (behind_sitesOfTerms site arguments).call f
  | .arithmetic _ left right => by
      rw [Form.sited, Form.sites]
      exact (Behind.two (left.below_sites _) (right.below_sites _)).below
  | .condition c => by
      rw [Form.sited, Form.sites]
      exact c.below_sites site
  | .subquery s | .existence s => by
      rw [Form.sited, Form.sites]
      exact s.below_sites site

theorem behind_sitesOfTerms (site : List Nat) :
    ∀ ts : List Term, Behind site 2 (sitesOfTerms (sitedTerms site ts))
  | [] => by
      rw [sitedTerms, sitesOfTerms]
      exact .two (.nil _) (.nil _)
  | t :: rest => by
      rw [sitedTerms, sitesOfTerms]
      exact .two (t.below_sites _) (behind_sitesOfTerms _ rest).below

theorem Condition.below_sites (site : List Nat) :
    ∀ c : Condition, Below site (c.sited site).sites
  | .compare _ left right => by
      rw [Condition.sited, Condition.sites]
      exact (Behind.two (left.below_sites _) (right.below_sites _)).below
  | .all parts | .any parts => by
      rw [Condition.sited, Condition.sites]
      exact below_sitesOfConditions site parts
  | .constant _ => by
      rw [Condition.sited, Condition.sites]
      exact .nil site
  | .term t => by
      rw [Condition.sited, Condition.sites]
      exact t.below_sites site

theorem below_sitesOfConditions (site : List Nat) :
    ∀ cs : List Condition, Below site (sitesOfConditions (sitedConditions site cs))
  | [] => by
      rw [sitedConditions, sitesOfConditions]
      exact .nil site
  | c :: rest => by
      rw [sitedConditions, sitesOfConditions]
      exact (Behind.two (c.below_sites _) (below_sitesOfConditions _ rest)).below

theorem Projection.below_sites (site : List Nat) :
    ∀ p : Projection, Below site (p.sited site).sites
  | .columns ts => by
      rw [Projection.sited, Projection.sites]
      exact (behind_sitesOfTerms site ts).below
  | .value t => by
      rw [Projection.sited, Projection.sites]
      exact t.below_sites site

theorem Source.below_sites (site : List Nat) : ∀ s : Source, Below site (s.sited site).sites
  | .documents | .path _ _ | .each _ _ => by
      rw [Source.sited, Source.sites]
      exact .nil site
  | .subquery s _ => by
      rw [Source.sited, Source.sites]
      exact s.below_sites site

theorem Join.below_sites (site : List Nat) : ∀ j : Join, Below site (j.sited site).sites
  | .each _ _ => by
      rw [Join.sited, Join.sites]
      exact .nil site
  | .subquery s _ => by
      rw [Join.sited, Join.sites]
      exact s.below_sites site

theorem below_sitesOfJoins (site : List Nat) :
    ∀ js : List Join, Below site (sitesOfJoins (sitedJoins site js))
  | [] => by
      rw [sitedJoins, sitesOfJoins]
      exact .nil site
  | j :: rest => by
      rw [sitedJoins, sitesOfJoins]
      exact (Behind.two (j.below_sites _) (below_sitesOfJoins _ rest)).below

theorem below_sitesOfKeys (site : List Nat) :
    ∀ ordering : List SortKey, Below site (sitesOfKeys (sitedKeys site ordering))
  | [] => by
      rw [sitedKeys, sitesOfKeys]
      exact .nil site
  | ⟨t, _⟩ :: rest => by
      rw [sitedKeys, sitesOfKeys]
      exact (Behind.two (t.below_sites _) (below_sitesOfKeys _ rest)).below

theorem below_sitesOfFilter (site : List Nat) :
    ∀ test : Option Condition, Below site (sitesOfFilter (sitedFilter site test))
  | none => by
      rw [sitedFilter, sitesOfFilter]
      exact .nil site
  | some c => by
      rw [sitedFilter, sitesOfFilter]
      exact c.below_sites site

theorem Statement.below_sites (site : List Nat) :
    ∀ s : Statement, Below site (s.sited site).sites
  | ⟨p, origin, js, test, grouping, ordering, _, _, _⟩ => by
      rw [Statement.sited, Statement.sites]
      have hfront := ((Behind.nil site).next (p.below_sites _)).next (origin.below_sites _)
      have hrows := (hfront.next (below_sitesOfJoins _ js)).next (below_sitesOfFilter _ test)
      exact ((hrows.next (behind_sitesOfTerms _ grouping).below).next
        (below_sitesOfKeys _ ordering)).below

end

/-- No two calls of `RAND` in a statement that is read draw the same number in a row. -/
theorem Statement.sites_nodup {ts : List Placed} {s : Statement} (h : read ts = .ok s) :
    s.sites.Nodup := by
  obtain ⟨t, -, rfl⟩ := read_eq_ok.mp h
  exact (t.below_sites []).nodup

/-! ## Statements without calls -/

theorem Function.sited_of_unmentioned {f : Function} (h : f.mentions [.draws] = false)
    (site : List Nat) : f.sited site = f := by
  cases f with
  | random other => cases h
  | _ => rfl

mutual

/-- A term that draws nothing has no sites to be told apart. -/
theorem Term.sited_of_unmentioned :
    ∀ t : Term, t.mentions [.draws] = false → ∀ site, t.sited site = t
  | ⟨_, _, form⟩, h, site => by
      rw [Term.mentions] at h
      rw [Term.sited, form.sited_of_unmentioned h]

theorem Form.sited_of_unmentioned :
    ∀ f : Form, f.mentions [.draws] = false → ∀ site, f.sited site = f
  | .path _, _, site => by rw [Form.sited]
  | .constant _, _, site => by rw [Form.sited]
  | .object members, h, site => by
      rw [Form.mentions] at h
      rw [Form.sited, sitedTerms_of_unmentioned members h]
  | .array elements, h, site => by
      rw [Form.mentions] at h
      rw [Form.sited, sitedTerms_of_unmentioned elements h]
  | .call f arguments, h, site => by
      rw [Form.mentions, Bool.or_eq_false_iff] at h
      rw [Form.sited, Function.sited_of_unmentioned h.1,
        sitedTerms_of_unmentioned arguments h.2]
  | .arithmetic _ left right, h, site => by
      rw [Form.mentions, Bool.or_eq_false_iff] at h
      rw [Form.sited, left.sited_of_unmentioned h.1, right.sited_of_unmentioned h.2]
  | .condition c, h, site => by
      rw [Form.mentions] at h
      rw [Form.sited, c.sited_of_unmentioned h]
  | .subquery s, h, site => by
      rw [Form.mentions] at h
      rw [Form.sited, s.sited_of_unmentioned h]
  | .existence s, h, site => by
      rw [Form.mentions] at h
      rw [Form.sited, s.sited_of_unmentioned h]

theorem sitedTerms_of_unmentioned :
    ∀ ts : List Term, anyTermMentions [.draws] ts = false → ∀ site, sitedTerms site ts = ts
  | [], _, site => by rw [sitedTerms]
  | t :: rest, h, site => by
      rw [anyTermMentions, Bool.or_eq_false_iff] at h
      rw [sitedTerms, t.sited_of_unmentioned h.1, sitedTerms_of_unmentioned rest h.2]

theorem Condition.sited_of_unmentioned :
    ∀ c : Condition, c.mentions [.draws] = false → ∀ site, c.sited site = c
  | .compare _ left right, h, site => by
      rw [Condition.mentions, Bool.or_eq_false_iff] at h
      rw [Condition.sited, left.sited_of_unmentioned h.1, right.sited_of_unmentioned h.2]
  | .all parts, h, site => by
      rw [Condition.mentions] at h
      rw [Condition.sited, sitedConditions_of_unmentioned parts h]
  | .any parts, h, site => by
      rw [Condition.mentions] at h
      rw [Condition.sited, sitedConditions_of_unmentioned parts h]
  | .constant _, _, site => by rw [Condition.sited]
  | .term t, h, site => by
      rw [Condition.mentions] at h
      rw [Condition.sited, t.sited_of_unmentioned h]

theorem sitedConditions_of_unmentioned :
    ∀ cs : List Condition, anyConditionMentions [.draws] cs = false →
      ∀ site, sitedConditions site cs = cs
  | [], _, site => by rw [sitedConditions]
  | c :: rest, h, site => by
      rw [anyConditionMentions, Bool.or_eq_false_iff] at h
      rw [sitedConditions, c.sited_of_unmentioned h.1, sitedConditions_of_unmentioned rest h.2]

theorem Projection.sited_of_unmentioned :
    ∀ p : Projection, p.mentions [.draws] = false → ∀ site, p.sited site = p
  | .columns ts, h, site => by
      rw [Projection.mentions] at h
      rw [Projection.sited, sitedTerms_of_unmentioned ts h]
  | .value t, h, site => by
      rw [Projection.mentions] at h
      rw [Projection.sited, t.sited_of_unmentioned h]

theorem Source.sited_of_unmentioned :
    ∀ s : Source, s.mentions [.draws] = false → ∀ site, s.sited site = s
  | .documents, _, site => by rw [Source.sited]
  | .path _ _, _, site => by rw [Source.sited]
  | .each _ _, _, site => by rw [Source.sited]
  | .subquery s _, h, site => by
      rw [Source.mentions] at h
      rw [Source.sited, s.sited_of_unmentioned h]

theorem Join.sited_of_unmentioned :
    ∀ j : Join, j.mentions [.draws] = false → ∀ site, j.sited site = j
  | .each _ _, _, site => by rw [Join.sited]
  | .subquery s _, h, site => by
      rw [Join.mentions] at h
      rw [Join.sited, s.sited_of_unmentioned h]

theorem sitedJoins_of_unmentioned :
    ∀ js : List Join, anyJoinMentions [.draws] js = false → ∀ site, sitedJoins site js = js
  | [], _, site => by rw [sitedJoins]
  | j :: rest, h, site => by
      rw [anyJoinMentions, Bool.or_eq_false_iff] at h
      rw [sitedJoins, j.sited_of_unmentioned h.1, sitedJoins_of_unmentioned rest h.2]

theorem sitedKeys_of_unmentioned :
    ∀ ordering : List SortKey, anyKeyMentions [.draws] ordering = false →
      ∀ site, sitedKeys site ordering = ordering
  | [], _, site => by rw [sitedKeys]
  | ⟨t, _⟩ :: rest, h, site => by
      rw [anyKeyMentions, Bool.or_eq_false_iff] at h
      rw [sitedKeys, t.sited_of_unmentioned h.1, sitedKeys_of_unmentioned rest h.2]

theorem sitedFilter_of_unmentioned :
    ∀ test : Option Condition, filterMentions [.draws] test = false →
      ∀ site, sitedFilter site test = test
  | none, _, site => by rw [sitedFilter]
  | some c, h, site => by
      rw [filterMentions] at h
      rw [sitedFilter, c.sited_of_unmentioned h]

theorem Statement.sited_of_unmentioned :
    ∀ s : Statement, s.mentions [.draws] = false → ∀ site, s.sited site = s
  | ⟨p, origin, js, test, grouping, ordering, _, _, _⟩, h, site => by
      simp only [Statement.mentions, Bool.or_eq_false_iff] at h
      obtain ⟨⟨⟨⟨⟨hp, horigin⟩, hjs⟩, htest⟩, hgrouping⟩, hordering⟩ := h
      rw [Statement.sited, p.sited_of_unmentioned hp, origin.sited_of_unmentioned horigin,
        sitedJoins_of_unmentioned js hjs, sitedFilter_of_unmentioned test htest,
        sitedTerms_of_unmentioned grouping hgrouping, sitedKeys_of_unmentioned ordering hordering]

end

end DocQuery
