import SqlSession.Backend.Scripted
import SqlSession.Catalog.Introspection
import SqlSession.Catalog.TableText
import SqlSession.Config.File
import SqlSession.Postgres.Login
import SqlSession.Session.Procedure
import SqlSession.Proofs.CallParams
import SqlSession.Proofs.CompiledText
import SqlSession.Proofs.Release
import SqlSession.Proofs.Requests
import SqlSession.Proofs.CallLife
import SqlSession.Proofs.Postgres.Batch
import SqlSession.Proofs.Postgres.Queue
import SqlSession.Proofs.Postgres.Transaction
import SqlSession.Proofs.Postgres.Closing
import SqlSession.Proofs.Postgres.OutValues
import SqlSession.Proofs.RecordBatch
import SqlSession.Proofs.ProbeOutcomes
import SqlSession.Proofs.SettledText
import SqlSession.Proofs.Sql.Renumbering
import SqlSession.Proofs.ParameterPositions
import SqlSession.Proofs.Sql.KeywordScan
import SqlSession.Proofs.Sql.ProjectionItems
import SqlSession.Proofs.Sql.RowNumber
import SqlSession.Proofs.FreshStart
import SqlSession.Proofs.Catalog.Description
import SqlSession.Proofs.Catalog.TableText
import SqlSession.Proofs.ConfigurationErrors
import SqlSession.Proofs.Wire.Acceptance
import SqlSession.Proofs.Wire.IntervalText
import SqlSession.Proofs.Wire.WriteBack
import SqlSession.Proofs.Sql.LeadingComments
import SqlSession.Proofs.Sql.BoundUndone
import SqlSession.Proofs.Sql.LimitClause
import SqlSession.Proofs.DefaultAliases
import SqlSession.Proofs.Wire.ServerStyle
import SqlSession.Proofs.Value.NumericConversion
import SqlSession.Proofs.Value.DecimalRecords
import SqlSession.Proofs.Value.JsonBinding
import SqlSession.Proofs.Value.IntegerView
import SqlSession.Proofs.Value.LargeText
import SqlSession.Proofs.Wire.Arrays
import SqlSession.Proofs.Config.Expansion
import SqlSession.Proofs.Sql.UrlTemplate
import SqlSession.Proofs.QualifiedFields
import SqlSession.Proofs.Catalog.VariableNames
import SqlSession.Proofs.FieldLists
import SqlSession.Proofs.Sql.KeywordSearch
import SqlSession.Proofs.Sql.LeadPasses
