import CallAtlas.Proofs.Document.MergedPaths
import CallAtlas.Proofs.Text.Segments

namespace CallAtlas

open CallAtlas.Text

def projectId : String := "\x7bproject_id\x7d"

-- How many segments of a path are the project id.
def projects (path : String) : Nat := (split '/' path).count projectId

theorem projects_segments (path : String) : projects path = (segments path).count projectId := by
  unfold projects segments
  exact (List.count_filter (by decide)).symm

theorem projects_empty : projects "" = 0 := by decide

theorem projects_slash (a b : String) : projects (a ++ "/" ++ b) = projects a + projects b := by
  simp only [projects_segments, segments_slash, List.count_append]

theorem projects_rooted (path : String) : projects ("/" ++ path) = projects path := by
  rw [projects_segments, segments_rooted, ← projects_segments]

theorem projects_trimSlashes (path : String) : projects (Call.trimSlashes path) = projects path := by
  have trimmed : segments (Call.trimSlashes path) = segments path := segments_trimmed path
  rw [projects_segments, trimmed, ← projects_segments]

def projectsIn (parts : List String) : Nat := (parts.flatMap (split '/')).count projectId

theorem projectsIn_nil : projectsIn [] = 0 := rfl

theorem projectsIn_cons (part : String) (rest : List String) :
    projectsIn (part :: rest) = projects part + projectsIn rest := by
  unfold projectsIn
  rw [List.flatMap_cons, List.count_append]
  rfl

theorem projectsIn_append (front back : List String) :
    projectsIn (front ++ back) = projectsIn front + projectsIn back := by
  unfold projectsIn
  rw [List.flatMap_append, List.count_append]

theorem projects_join (parts : List String) : projects (join "/" parts) = projectsIn parts := by
  unfold join
  induction parts with
  | nil => exact projects_empty
  | cons part rest ih =>
    cases rest with
    | nil => rw [String.intercalate_singleton, projectsIn_cons, projectsIn_nil, Nat.add_zero]
    | cons next more => rw [String.intercalate_cons_cons, projects_slash, ih, projectsIn_cons part]

theorem projectsIn_filled (parts : List String) :
    projectsIn (parts.filter (· != "")) = projectsIn parts := by
  induction parts with
  | nil => rfl
  | cons part rest ih =>
    by_cases empty : part = ""
    · simp [empty, projectsIn_cons, projects_empty, ih]
    · simp [empty, projectsIn_cons, ih]

-- The ids in what a service puts before its URLs.
def Service.projects (s : Service) : Nat :=
  CallAtlas.projects s.version + (if s.includesProjectId then 1 else 0) + CallAtlas.projects s.resourceBase

theorem Call.projects_fullPath (c : Call) :
    projects c.fullPath = if c.annotated then projects c.url else c.service.projects + projects c.url := by
  cases annotated : c.annotated with
  | true => rw [fullPath_annotated annotated, if_pos rfl]
  | false =>
    rw [if_neg Bool.false_ne_true, fullPath_plain annotated, projects_rooted, projects_join,
      projectsIn_append]
    have before : projectsIn c.serviceParts = c.service.projects := by
      have one : projects "\x7bproject_id\x7d" = 1 := by decide
      unfold serviceParts Service.projects
      rw [annotated, if_neg Bool.false_ne_true, projectsIn_filled]
      simp only [List.map_cons, List.map_nil, projectsIn_cons, projectsIn_nil, projects_trimSlashes]
      split
      · rw [one]
        omega
      · rw [projects_empty]
        omega
    have url : projectsIn (urlPart c.url) = projects c.url := by
      unfold urlPart
      rw [projectsIn_filled, projectsIn_cons, projectsIn_nil, projects_trimSlashes, Nat.add_zero]
    rw [before, url]

end CallAtlas
