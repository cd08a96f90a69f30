/-
The server as a backend of sessions.

A session prepares nothing on the server by asking for a statement; that happens when the
statement runs.  Closing the connection is left to whoever opened the link to the server.
-/
import SqlSession.Postgres.Call
import SqlSession.Postgres.Catalog

namespace SqlSession.Postgres

instance : Backend Connection where
  Statement := Statement
  Callable := Call
  prepare text := pure { text }
  prepareCall procedure := pure (Call.ofProcedure procedure)
  setAutoCommit := Connection.setAutoCommit
  autoCommit := Connection.autoCommit
  commit := Connection.commit
  rollback := Connection.rollback
  isValid := Connection.isValid
  close := pure ()
  catalog := catalog
  bind := Statement.bind
  executeUpdate := Statement.executeUpdate
  executeQuery := Statement.executeQuery
  execute := Statement.execute
  addBatch := Statement.addBatch
  executeBatch := Statement.executeBatch
  closeStatement _ c := c
  callText := Call.text
  bindCall := Call.bind
  register := Call.register
  executeCall := Call.execute
  queryCall := Call.query
  resultSet := Call.resultSet
  moreResults := Call.moreResults
  updateCount call := call.results.updateCount
  outValue position call _ := call.outValue position
  closeCall _ c := c
  resultsLeft call := call.results.pending.length
  resultsLeft_of_failed h := by simp [Call.moreResults] at h
  resultsLeft_of_rows h := by
    obtain ⟨hr, rfl⟩ := by simpa [Call.moreResults] using h
    exact CallResults.length_pending_next_of_hasRows hr
  resultsLeft_of_count h hc := by
    obtain ⟨-, rfl⟩ := by simpa [Call.moreResults] using h
    exact CallResults.length_pending_next_of_updateCount hc
  resultsLeft_of_taken h := by
    obtain ⟨-, rfl⟩ := by simpa [Call.resultSet] using h
    simp

end SqlSession.Postgres
